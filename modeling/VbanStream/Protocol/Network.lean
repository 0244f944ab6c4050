import VbanStream.Library.Fallible
import VbanStream.Settings.Config

namespace VbanStream

open Library

/-- `inet_pton` on an IPv4 text: the address in network order. -/
abbrev Parse := String → Option UInt32

def ntohl (address : UInt32) : UInt32 :=
  (address <<< 24) ||| ((address <<< 8) &&& (0xff0000 : UInt32)) |||
    ((address >>> 8) &&& (0xff00 : UInt32)) ||| (address >>> 24)

/-- Neither unset, nor broadcast, nor multicast. -/
def unicast (address : UInt32) : Bool :=
  address != 0 && address != 0xffffffff && (ntohl address &&& (0xf0000000 : UInt32)) != 0xe0000000

structure LocalIPv4 where
  address : String
  interfaceIndex : UInt32

/-- The local adapters, or the error code of their enumeration. -/
abbrev Adapters := Except Int (List LocalIPv4)

def localIPv4Addresses : Adapters → Except String (List LocalIPv4)
  | .error code =>
    .error ("Cannot enumerate local IPv4 adapters (Socket " ++ toString code ++ ").")
  | .ok adapters => .ok adapters

/-- The interface of a selected local address, looked up only where it is needed. -/
def selectAdapter (adapters : Adapters) (localIp : String) (needed : Bool) (missing : String) :
    Except String UInt32 :=
  if localIp = "" ∨ needed = false then .ok 0
  else
    match localIPv4Addresses adapters with
    | .error message => .error message
    | .ok found =>
      match found.find? fun adapter => adapter.address = localIp with
      | none => .error missing
      | some adapter => .ok adapter.interfaceIndex

/-- The answers for one new datagram socket. -/
structure SocketAnswers where
  /-- The handle, once the socket is created with its options. -/
  created : Option Nat
  selects : UInt32 → Bool
  binds : Bool
  connects : Bool
  /-- The local end of the connected socket. -/
  endpoint : Option (String × UInt16)
  quiet : Bool
  error : Int

/-- Bind to the selected local address. -/
def SocketAnswers.bindsTo (answers : SocketAnswers) (parse : Parse) (localIp : String)
    (interface : UInt32) : Bool :=
  (parse localIp).isSome && answers.selects interface && answers.binds

theorem selectAdapter_meets (adapters : Adapters) (localIp : String) (needed : Bool)
    {missing : String} (named : missing ≠ "") :
    Meets (· ≠ "") (fun _ => True) (selectAdapter adapters localIp needed missing) := by
  refine meets_ite trivial ?_
  cases adapters with
  | error code => simp [localIPv4Addresses, Meets]
  | ok found =>
    simp only [localIPv4Addresses]
    split
    · exact named
    · trivial

end VbanStream
