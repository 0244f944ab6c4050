import VbanStream.Library.Circular
import VbanStream.Mouse.Release
import VbanStream.Receiver.Dispatch
import VbanStream.Return.Encode

namespace VbanStream

open Library

/-- The header of a command up to the name: 256000 bps, UTF-8 VBAN-TEXT, subchannel zero. -/
def mouseHead : List UInt8 := signature ++ [0x52, 0, 0, 0x10]

/-- A command datagram, in its four parts. -/
def mouseDatagram (name : StreamName) (sequence : UInt32) (text : List UInt8) : List UInt8 :=
  mouseHead ++ (nameField name ++ (littleEndianBytes 4 sequence.toNat ++ text))

/-- `Listener::receive` of the mouse tests: the text of a command with the name and the
number that are expected. -/
def MouseListener.receive (name : StreamName) (sequence : UInt32) (bytes : List UInt8) :
    Option (List UInt8) :=
  let data := bytes.take maxDatagram
  if data.length ≤ headerSize ∨ data.take 8 ≠ mouseHead ∨
      (data.drop 8).take name.length ≠ name ∨
      UInt32.ofNat (littleEndian ((data.drop 24).take 4)) ≠ sequence then none
  else some (data.drop headerSize)

theorem length_mouseDatagram {name : StreamName} (valid : validStreamName name = true)
    (sequence : UInt32) (text : List UInt8) :
    (mouseDatagram name sequence text).length = headerSize + text.length := by
  simp only [mouseDatagram, List.length_append, length_nameField valid, length_littleEndianBytes]
  simp [mouseHead, signature, headerSize]
  omega

/-- The fields that `mouse_packet` writes make up the datagram. -/
theorem mousePacket_eq {name : StreamName} {sequence : UInt32} {action : MouseAction} {x y : Int}
    (built : mousePacket name sequence action x y ≠ []) :
    mousePacket name sequence action x y =
      mouseDatagram name sequence (ascii (commandText action x y)) := by
  obtain ⟨valid, _, _⟩ := mousePacket_built.mp built
  unfold mousePacket at built ⊢
  split
  · rename_i refused
    rw [if_pos refused] at built
    exact absurd rfl built
  · dsimp only
    let blank : Memory := fun _ => 0
    have header := write_header blank valid 0x52 0 0 0x10 sequence
    have zeros : blank.fill 0 headerSize 0 = blank := blank.write_present 0 rfl
    rw [zeros, Memory.write_present _ 5 rfl, Memory.write_present _ 6 rfl] at header
    have place : 0 + (signature ++ [0x52, 0, 0, 0x10] ++
        (nameField name ++ littleEndianBytes 4 sequence.toNat)).length = headerSize := by
      simp only [List.length_append, length_nameField valid, length_littleEndianBytes]
      rfl
    have appended := blank.write_append 0 (signature ++ [0x52, 0, 0, 0x10] ++
      (nameField name ++ littleEndianBytes 4 sequence.toNat)) (ascii (commandText action x y))
    rw [place] at appended
    have found := blank.read_write 0
      (mouseDatagram name sequence (ascii (commandText action x y)))
    rw [length_mouseDatagram valid] at found
    rw [header, appended]
    simpa only [mouseDatagram, mouseHead, List.append_assoc] using found

theorem drop_mouseDatagram_name {name : StreamName} (valid : validStreamName name = true)
    (sequence : UInt32) (text : List UInt8) :
    (mouseDatagram name sequence text).drop 24 = littleEndianBytes 4 sequence.toNat ++ text := by
  rw [mouseDatagram, ← List.append_assoc]
  apply List.drop_left'
  rw [List.length_append, length_nameField valid]
  rfl

theorem drop_mouseDatagram {name : StreamName} (valid : validStreamName name = true)
    (sequence : UInt32) (text : List UInt8) :
    (mouseDatagram name sequence text).drop headerSize = text := by
  have split : (mouseDatagram name sequence text).drop headerSize =
      ((mouseDatagram name sequence text).drop 24).drop 4 := by
    rw [List.drop_drop]
    rfl
  rw [split, drop_mouseDatagram_name valid]
  exact List.drop_left' (length_littleEndianBytes 4 _)

/-- A command is heard by the listener that expects it. -/
theorem receive_mouseDatagram {name : StreamName} (valid : validStreamName name = true)
    (sequence : UInt32) {text : List UInt8} (said : text ≠ [])
    (short : headerSize + text.length ≤ maxDatagram) :
    MouseListener.receive name sequence (mouseDatagram name sequence text) = some text := by
  have length := length_mouseDatagram valid sequence text
  have after := drop_mouseDatagram valid sequence text
  have whole : (mouseDatagram name sequence text).take maxDatagram =
      mouseDatagram name sequence text := List.take_of_length_le (by omega)
  have positive := List.length_pos_of_ne_nil said
  have padded := length_nameField valid
  have named : (nameField name).take name.length = name := by simp [nameField]
  have fits := (validStreamName_iff.mp valid).2.1
  have head : mouseHead.length = 8 := rfl
  have numbered := drop_mouseDatagram_name valid sequence text
  unfold MouseListener.receive
  rw [whole]
  dsimp only
  rw [if_neg]
  · exact congrArg some after
  · simp only [not_or, not_not]
    refine ⟨by omega, ?_, ?_, ?_⟩
    · exact List.take_left' head
    · rw [mouseDatagram, List.drop_left' head, List.take_append_of_le_length (by omega), named]
    · rw [numbered, List.take_left' (by simp), littleEndian_littleEndianBytes]
      apply UInt32.toNat_inj.mp
      simp

/-- A receiver takes a command neither for audio nor for video. -/
theorem receiveOnce_mouseDatagram {Picture : Type*} {name : StreamName} {sequence : UInt32}
    {text : List UInt8} (current polled : Routing) (sender : UInt32) (socket : Nat)
    (readings : Readings) (s : Inbox Picture) :
    current.receiveOnce polled ⟨mouseDatagram name sequence text, sender, socket⟩ readings s =
      s := by
  have kind : (Datagram.mk (mouseDatagram name sequence text) sender socket).memory 4 = 0x52 := rfl
  have video : (Datagram.mk (mouseDatagram name sequence text) sender socket).video = false := by
    rw [Datagram.video, kind]
    decide
  have audio : (Datagram.mk (mouseDatagram name sequence text) sender socket).audio = false := by
    rw [Datagram.audio, kind]
    decide
  unfold Routing.receiveOnce
  rw [video, audio]
  simp

theorem split_mark {α : Type*} {mark : α} {first second rest other : List α}
    (absent : mark ∉ first) (missing : mark ∉ second)
    (same : first ++ mark :: rest = second ++ mark :: other) : first = second ∧ rest = other := by
  induction first generalizing second with
  | nil =>
    cases second with
    | nil => exact ⟨rfl, (List.cons.inj same).2⟩
    | cons head tail =>
      rw [(List.cons.inj same).1] at missing
      exact absurd List.mem_cons_self missing
  | cons head tail ih =>
    cases second with
    | nil =>
      rw [← (List.cons.inj same).1] at absent
      exact absurd List.mem_cons_self absent
    | cons head' tail' =>
      obtain ⟨rfl, tails⟩ := List.cons.inj same
      obtain ⟨rfl, rest⟩ := ih (fun found => absent (List.mem_cons_of_mem _ found))
        (fun found => missing (List.mem_cons_of_mem _ found)) tails
      exact ⟨rfl, rest⟩

theorem toList_coordinate (n : Nat) : (toString (n : Int)).toList = Nat.toDigits 10 n := by
  rw [Int.toString_eq_repr, Int.repr_eq_if, if_pos (Int.natCast_nonneg n), Int.toNat_natCast,
    Nat.toList_repr]

theorem notMem_digits {mark : Char} (other : mark.isDigit = false) (n : Nat) :
    mark ∉ Nat.toDigits 10 n := by
  intro member
  rw [Nat.isDigit_of_mem_toDigits (by decide) (by decide) member] at other
  cases other

theorem toList_commandText (action : MouseAction) (x y : Nat) :
    (commandText action x y).toList = "System.Mouse=(".toList ++ (action.command.toList ++
      ',' :: ' ' :: (Nat.toDigits 10 x ++ ',' :: ' ' :: (Nat.toDigits 10 y ++ ')' :: [';']))) := by
  have comma : ", ".toList = [',', ' '] := by decide
  have close : ");".toList = [')', ';'] := by decide
  unfold commandText
  simp only [String.toList_append, toList_coordinate, List.append_assoc, comma, close,
    List.cons_append, List.nil_append]

theorem map_ascii {text : String} (narrow : ∀ c ∈ text.toList, c.toNat < 128) :
    (ascii text).map (fun byte => Char.ofNat byte.toNat) = text.toList := by
  rw [ascii, List.map_map]
  conv_rhs => rw [← List.map_id text.toList]
  apply List.map_congr_left
  intro c member
  have small := narrow c member
  rw [Function.comp_apply, UInt8.toNat_ofNat', Nat.mod_eq_of_lt (by omega), Char.ofNat_toNat]
  rfl

theorem commandText_ascii (action : MouseAction) (x y : Nat) :
    ∀ c ∈ (commandText action x y).toList, c.toNat < 128 := by
  have digits (n : Nat) : ∀ c ∈ Nat.toDigits 10 n, c.toNat < 128 := by
    intro c member
    have digit := Nat.isDigit_of_mem_toDigits (by decide) (by decide) member
    simp only [Char.isDigit, ge_iff_le, Bool.and_eq_true, decide_eq_true_eq] at digit
    have low : c.toNat ≤ 57 := digit.2
    omega
  have narrow {text : List Char} (all : text.all (fun c => decide (c.toNat < 128)) = true) :
      ∀ c ∈ text, c.toNat < 128 :=
    fun c member => of_decide_eq_true (List.all_eq_true.mp all c member)
  rw [toList_commandText]
  simp only [List.forall_mem_append, List.forall_mem_cons]
  refine ⟨narrow (by decide +kernel), narrow ?_, by decide, by decide, digits x, by decide,
    by decide, digits y, by decide, by decide, by simp⟩
  cases action <;> decide +kernel

theorem commandText_inj {first second : MouseAction} {x y x' y' : Nat}
    (same : ascii (commandText first x y) = ascii (commandText second x' y')) :
    first = second ∧ x = x' ∧ y = y' := by
  have chars := congrArg (List.map fun byte => Char.ofNat byte.toNat) same
  rw [map_ascii (commandText_ascii first x y), map_ascii (commandText_ascii second x' y'),
    toList_commandText, toList_commandText] at chars
  have plain (action : MouseAction) : ',' ∉ action.command.toList := by
    cases action <;> decide +kernel
  obtain ⟨command, chars⟩ := split_mark (plain first) (plain second)
    (List.append_cancel_left chars)
  obtain ⟨across, chars⟩ := split_mark (notMem_digits rfl x) (notMem_digits rfl x')
    (List.cons.inj chars).2
  obtain ⟨down, _⟩ := split_mark (notMem_digits rfl y) (notMem_digits rfl y')
    (List.cons.inj chars).2
  have value {n m : Nat} (digits : Nat.toDigits 10 n = Nat.toDigits 10 m) : n = m := by
    rw [← Nat.ofDigitChars_ten_toDigits (n := n), digits, Nat.ofDigitChars_ten_toDigits]
  refine ⟨?_, value across, value down⟩
  revert command
  cases first <;> cases second <;> decide +kernel

theorem commandText_short (action : MouseAction) {x y : Nat} (across : x < 4096) (down : y < 4096) :
    headerSize + (ascii (commandText action x y)).length ≤ maxDatagram := by
  have digits {n : Nat} (small : n < 4096) : (Nat.toDigits 10 n).length ≤ 4 :=
    (Nat.length_toDigits_le_iff (by decide) (by decide)).mpr (by omega)
  have left := digits across
  have right := digits down
  have command : action.command.toList.length ≤ 11 := by
    cases action <;> decide +kernel
  have opening : "System.Mouse=(".toList.length = 14 := by decide +kernel
  rw [ascii, List.length_map, toList_commandText]
  simp only [List.length_append, List.length_cons, List.length_nil, opening, headerSize,
    maxDatagram]
  omega

/-- A listener on the attempt's stream that expects this number hears the command. -/
def MouseAttempt.Heard (a : MouseAttempt) (sequence : UInt32) : Prop :=
  MouseListener.receive a.packet.name sequence a.packet.bytes =
    some (ascii (commandText a.action a.x a.y))

/-- The packet of an attempt carries this number. -/
def MouseAttempt.Numbered (a : MouseAttempt) (number : Nat) : Prop :=
  a.packet.bytes ≠ [] ∧
    a.packet.bytes = mousePacket a.packet.name (serial 0 number) a.action a.x a.y

/-- The attempt goes where the routing has its slot, under the name that is set there. -/
def MouseAttempt.Follows (a : MouseAttempt) (routing : Option MouseRouting) : Prop :=
  ∃ destinations, routing = some destinations ∧
    (destinations a.slot).val.config.enabled = true ∧ a.packet.socket.isSome = true ∧
    a.packet.socket = (destinations a.slot).val.socket ∧
    a.packet.name = (destinations a.slot).val.config.streamName

namespace MouseAttempt.Numbered

/-- The datagram of an attempt, with natural numbers for its pixel. -/
theorem datagram {a : MouseAttempt} {number : Nat} (numbered : a.Numbered number) :
    validStreamName a.packet.name = true ∧ ∃ left top : Nat,
      (a.x = left ∧ left < 4096) ∧ (a.y = top ∧ top < 4096) ∧
      a.packet.bytes =
        mouseDatagram a.packet.name (serial 0 number) (ascii (commandText a.action left top)) := by
  obtain ⟨built, bytes⟩ := numbered
  rw [bytes] at built
  obtain ⟨valid, across, down⟩ := mousePacket_built.mp built
  obtain ⟨left, hx⟩ := Int.eq_ofNat_of_zero_le across.1
  obtain ⟨top, hy⟩ := Int.eq_ofNat_of_zero_le down.1
  refine ⟨valid, left, top, ⟨hx, by omega⟩, ⟨hy, by omega⟩, ?_⟩
  rw [bytes, mousePacket_eq built, hx, hy]

theorem heard {a : MouseAttempt} {number : Nat} (numbered : a.Numbered number) :
    a.Heard (serial 0 number) := by
  obtain ⟨valid, left, top, ⟨across, narrow⟩, ⟨down, low⟩, bytes⟩ := numbered.datagram
  rw [Heard, bytes, across, down]
  refine receive_mouseDatagram valid _ ?_ (commandText_short a.action narrow low)
  rw [ascii, toList_commandText]
  simp

theorem command_eq {a b : MouseAttempt} {first second : Nat} (one : a.Numbered first)
    (other : b.Numbered second) (same : a.packet.bytes = b.packet.bytes) :
    a.action = b.action ∧ a.x = b.x ∧ a.y = b.y := by
  obtain ⟨valid, left, top, ⟨across, _⟩, ⟨down, _⟩, bytes⟩ := one.datagram
  obtain ⟨valid', left', top', ⟨across', _⟩, ⟨down', _⟩, bytes'⟩ := other.datagram
  have texts := congrArg (List.drop headerSize) same
  rw [bytes, bytes', drop_mouseDatagram valid, drop_mouseDatagram valid'] at texts
  obtain ⟨action, rfl, rfl⟩ := commandText_inj texts
  exact ⟨action, across.trans across'.symm, down.trans down'.symm⟩

end MouseAttempt.Numbered

/-- The attempt for this slot. -/
def MouseEvent.attempted (i : Fin videoSlotCount) : MouseEvent → Option MouseAttempt
  | .attempt a => if a.slot = i then some a else none
  | .replaced | .destroyed => none

namespace MouseReturn

/-- The attempts for a slot so far. -/
def attempts (s : MouseReturn) (i : Fin videoSlotCount) : List MouseAttempt :=
  s.trace.filterMap (MouseEvent.attempted i)

/-- Between two states, the slot has taken the numbers from `first` up to `last`; each of its
attempts carries one, a later attempt a later one, and goes where the routing of the first
state has it. -/
structure Counts (i : Fin videoSlotCount) (s next : MouseReturn) (first last : Nat) : Prop where
  order : first ≤ last
  sequences : next.sequences i = serial 0 last
  carried : ∃ commands numbers, next.attempts i = s.attempts i ++ commands ∧
    numbers.Pairwise (· < ·) ∧ (∀ number ∈ numbers, first ≤ number ∧ number < last) ∧
    List.Forall₂ (fun a number => a.Follows s.routing ∧ a.Numbered number) commands numbers

/-- The same, with a bound on the numbers and the routing as it was. -/
def Counted (i : Fin videoSlotCount) (s : MouseReturn) (first limit : Nat) (next : MouseReturn) :
    Prop :=
  next.routing = s.routing ∧ ∃ last, last ≤ first + limit ∧ Counts i s next first last

variable {i : Fin videoSlotCount} {start s next : MouseReturn} {first last limit : Nat}

theorem Counts.congr (counts : Counts i start s first last)
    (sequences : next.sequences i = s.sequences i) (attempts : next.attempts i = s.attempts i) :
    Counts i start next first last :=
  ⟨counts.order, sequences.trans counts.sequences, attempts ▸ counts.carried⟩

/-- A number is taken, and an attempt may carry it. -/
theorem Counts.take (counts : Counts i start s first last)
    (sequences : next.sequences i = s.sequences i + 1) (fresh : List MouseAttempt)
    (few : fresh.length ≤ 1)
    (numbered : ∀ a ∈ fresh, a.Follows start.routing ∧ a.Numbered last)
    (attempts : next.attempts i = s.attempts i ++ fresh) :
    Counts i start next first (last + 1) := by
  obtain ⟨order, counter, commands, numbers, traced, ordered, within, carried⟩ := counts
  refine ⟨by omega, by rw [sequences, counter, serial_succ], ?_⟩
  have wider : ∀ number ∈ numbers, first ≤ number ∧ number < last + 1 := fun number member =>
    ⟨(within number member).1, Nat.lt_succ_of_lt (within number member).2⟩
  rcases fresh with _ | ⟨a, _ | ⟨b, rest⟩⟩
  · rw [List.append_nil] at attempts
    exact ⟨commands, numbers, attempts.trans traced, ordered, wider, carried⟩
  · refine ⟨commands ++ [a], numbers ++ [last], ?_, ?_, ?_, ?_⟩
    · rw [attempts, traced, List.append_assoc]
    · rw [List.pairwise_append]
      exact ⟨ordered, List.pairwise_singleton _ _,
        fun number member other here => List.mem_singleton.mp here ▸ (within number member).2⟩
    · intro number member
      rcases List.mem_append.mp member with old | new
      · exact wider number old
      · rw [List.mem_singleton.mp new]
        exact ⟨order, Nat.lt_succ_self last⟩
    · exact List.rel_append carried (.cons (numbered a List.mem_cons_self) .nil)
  · simp at few

theorem Counted.refl (sequences : s.sequences i = serial 0 first) : Counted i s first 0 s :=
  ⟨rfl, first, le_rfl, le_rfl, sequences, [], [], (List.append_nil _).symm, .nil, by simp, .nil⟩

theorem Counted.mono (counted : Counted i start first limit s) {more : Nat}
    (le : limit ≤ more) : Counted i start first more s := by
  obtain ⟨routing, last, within, counts⟩ := counted
  exact ⟨routing, last, by omega, counts⟩

theorem Counted.congr (counted : Counted i start first limit s)
    (routing : next.routing = s.routing) (sequences : next.sequences i = s.sequences i)
    (attempts : next.attempts i = s.attempts i) : Counted i start first limit next := by
  obtain ⟨same, last, within, counts⟩ := counted
  exact ⟨routing.trans same, last, within, counts.congr sequences attempts⟩

variable (failure : Nat → Option Int)

/-- A send leaves the numbers alone, or takes the next one of its slot; what it
attempts carries that number, under the name that the routing has. -/
theorem send_numbers (s : MouseReturn) (j : Fin videoSlotCount) (action : MouseAction) (x y : Int) :
    let next := (s.send failure j action x y).1
    next.routing = s.routing ∧
      ((next.sequences = s.sequences ∧ next.trace = s.trace) ∨
        next.sequences = Function.update s.sequences j (s.sequences j + 1) ∧
          (next.trace = s.trace ∨ ∃ a, a.slot = j ∧ next.trace = s.trace ++ [.attempt a] ∧
            a.Follows s.routing ∧ a.packet.bytes ≠ [] ∧
            a.packet.bytes = mousePacket a.packet.name (s.sequences j) a.action a.x a.y)) := by
  intro next
  subst next
  rw [send.eq_def]
  split
  · exact ⟨rfl, .inl ⟨rfl, rfl⟩⟩
  · rename_i destinations route
    dsimp only
    split
    · exact ⟨rfl, .inl ⟨rfl, rfl⟩⟩
    · rename_i opened
      obtain ⟨enabled, socket⟩ := not_or.mp opened
      have follows : ∃ found, s.routing = some found ∧ (found j).val.config.enabled = true ∧
          (destinations j).val.socket.isSome = true ∧
          (destinations j).val.socket = (found j).val.socket ∧
          (destinations j).val.config.streamName = (found j).val.config.streamName :=
        ⟨destinations, route, by simpa using enabled, Option.isSome_iff_ne_none.mpr socket, rfl,
          rfl⟩
      split
      · exact ⟨rfl, .inr ⟨rfl, .inl rfl⟩⟩
      · rename_i built
        split
        · exact ⟨rfl, .inr ⟨rfl, .inr ⟨_, rfl, rfl, follows, built, rfl⟩⟩⟩
        · exact ⟨rfl, .inr ⟨rfl, .inr ⟨_, rfl, rfl, follows, built, rfl⟩⟩⟩

theorem Counted.send (counted : Counted i start first limit s) (j : Fin videoSlotCount)
    (action : MouseAction) (x y : Int) :
    Counted i start first (limit + 1) (s.send failure j action x y).1 := by
  obtain ⟨route, steps⟩ := send_numbers failure s j action x y
  generalize (s.send failure j action x y).1 = next at route steps
  rcases steps with ⟨sequences, trace⟩ | ⟨sequences, outcome⟩
  · exact (counted.congr route (by rw [sequences]) (by rw [attempts, trace, attempts])).mono
      (Nat.le_succ limit)
  · by_cases here : j = i
    · subst here
      have stepped : next.sequences j = s.sequences j + 1 := by rw [sequences, Function.update_self]
      obtain ⟨routing, last, within, counts⟩ := counted
      refine ⟨route.trans routing, last + 1, by omega, ?_⟩
      rcases outcome with trace | ⟨a, slot, trace, follows, built, bytes⟩
      · exact counts.take stepped [] (by simp) (by simp) (by simp [attempts, trace])
      · refine counts.take stepped [a] (by simp) ?_ ?_
        · intro other member
          rw [List.mem_singleton.mp member, ← routing]
          exact ⟨follows, built, counts.sequences ▸ bytes⟩
        · simp [attempts, trace, MouseEvent.attempted, slot]
    · have still : next.sequences i = s.sequences i := by
        rw [sequences, Function.update_of_ne (Ne.symm here)]
      refine (counted.congr route still ?_).mono (Nat.le_succ limit)
      rcases outcome with trace | ⟨a, slot, trace, _⟩
      · rw [attempts, trace, attempts]
      · simp [attempts, trace, MouseEvent.attempted, slot, here]

theorem Counted.releaseLocked (counted : Counted i start first limit s) :
    Counted i start first (limit + 3) (s.releaseLocked failure) := by
  rw [releaseLocked.eq_def]
  split
  · exact counted.mono (by omega)
  · exact (((counted.send failure _ _ _ _).send failure _ _ _ _).send failure _ _ _ _).congr
      rfl rfl rfl

theorem Counted.press (counted : Counted i start first limit s) (slot : Nat) (right : Bool)
    (x y : Int) : Counted i start first (limit + 8) (s.press failure slot right x y).1 := by
  have released := counted.releaseLocked failure
  rw [press.eq_def]
  dsimp only
  split
  · exact released.mono (by omega)
  · rename_i j _
    have moved := released.send failure j .move x y
    split
    · rename_i taken
      rw [taken] at moved
      exact moved.mono (by omega)
    · rename_i held taken
      rw [taken] at moved
      have holding : Counted i start first (limit + 3 + 1)
          ({ held with heldSlot := some j, right, x, y }.setDragging j true) :=
        moved.congr rfl rfl rfl
      have pressed := holding.send failure j (.down right) x y
      split
      · rename_i taken
        rw [taken] at pressed
        exact pressed.releaseLocked failure
      · rename_i taken
        rw [taken] at pressed
        exact pressed.mono (by omega)

theorem Counted.move (counted : Counted i start first limit s) (slot : Nat) (x y : Int) :
    Counted i start first (limit + 8) (s.move failure slot x y).1 := by
  rw [move.eq_def]
  split
  · exact counted.mono (by omega)
  · split
    · exact (counted.releaseLocked failure).mono (by omega)
    · rename_i j _
      have moved := counted.send failure j .move x y
      split
      · rename_i taken
        rw [taken] at moved
        exact (moved.releaseLocked failure).mono (by omega)
      · rename_i there taken
        rw [taken] at moved
        have placed : Counted i start first (limit + 1) { there with x, y } :=
          moved.congr rfl rfl rfl
        exact placed.mono (by omega)

theorem perform_counts (sequences : s.sequences i = serial 0 first) (operation : Operation) :
    ∃ last, last ≤ first + 8 ∧ Counts i s (s.perform failure operation) first last := by
  have counted : Counted i s first 0 s := .refl sequences
  obtain ⟨_, last, within, counts⟩ := counted.releaseLocked failure
  have few : last ≤ first + 8 := by omega
  cases operation with
  | press slot right x y =>
    obtain ⟨_, last, within, counts⟩ := counted.press failure slot right x y
    exact ⟨last, by omega, counts⟩
  | move slot x y =>
    obtain ⟨_, last, within, counts⟩ := counted.move failure slot x y
    exact ⟨last, by omega, counts⟩
  | release => exact ⟨last, few, counts⟩
  | activate next =>
    refine ⟨last, few, counts.congr rfl ?_⟩
    simp [MouseReturn.perform, activate, attempts, MouseEvent.attempted]
  | destroy =>
    refine ⟨last, few, counts.congr rfl ?_⟩
    simp [MouseReturn.perform, destroy, release, attempts, MouseEvent.attempted]

/-- The numbers that the operations of a run take follow one another. -/
theorem run_counts (operations : List Operation) (sequences : s.sequences i = serial 0 first) :
    ∃ taken : Nat → Nat, taken 0 = first ∧
      ∀ front operation back, operations = front ++ operation :: back →
        taken (front.length + 1) ≤ taken front.length + 8 ∧
        Counts i (front.foldl (perform failure) s)
          ((front.foldl (perform failure) s).perform failure operation)
          (taken front.length) (taken (front.length + 1)) := by
  induction operations generalizing s first with
  | nil =>
    refine ⟨fun _ => first, rfl, fun front operation back split => ?_⟩
    simp at split
  | cons operation rest ih =>
    obtain ⟨last, few, counts⟩ := perform_counts failure sequences operation
    obtain ⟨taken, begins, follows⟩ := ih counts.sequences
    refine ⟨fun k => k.casesOn first taken, rfl, fun front other back split => ?_⟩
    cases front with
    | nil =>
      obtain ⟨rfl, _⟩ := List.cons.inj split
      dsimp only [List.length_nil]
      rw [begins]
      exact ⟨few, counts⟩
    | cons head front =>
      obtain ⟨rfl, later⟩ := List.cons.inj split
      exact follows front other back later

theorem numbered_of_mem {routing : Option MouseRouting} {numbers : List Nat}
    {commands : List MouseAttempt}
    (carried : List.Forall₂ (fun a number => a.Follows routing ∧ a.Numbered number) commands
      numbers) {a : MouseAttempt} (member : a ∈ commands) : ∃ number, a.Numbered number := by
  induction carried with
  | nil => cases member
  | cons head _ ih =>
    rcases List.mem_cons.mp member with rfl | old
    · exact ⟨_, head.2⟩
    · exact ih old

theorem after_numbered (operations : List Operation) (i : Fin videoSlotCount) :
    ∀ a ∈ (after failure operations).attempts i, ∃ number, a.Numbered number := by
  induction operations using List.reverseRecOn with
  | nil =>
    intro a member
    cases member
  | append_singleton front operation ih =>
    have counter : (after failure front).sequences i =
        serial 0 ((after failure front).sequences i).toNat := by
      rw [serial, UInt32.zero_add, UInt32.ofNat_toNat]
    obtain ⟨_, _, _, _, commands, numbers, traced, _, _, carried⟩ :=
      perform_counts failure counter operation
    rw [after, List.foldl_append, List.foldl_cons, List.foldl_nil, ← after, traced]
    intro a member
    rcases List.mem_append.mp member with old | new
    · exact ih a old
    · exact numbered_of_mem carried new

/-- What one operation sends for a slot: numbers from `first` up to `last`, at most eight of
them, rising with the commands; each command goes where the routing in force has the slot, and
a listener on its stream hears it as it was meant. -/
structure Heard (i : Fin videoSlotCount) (s next : MouseReturn) (first last : Nat) : Prop where
  order : first ≤ last ∧ last ≤ first + 8
  commands : ∃ commands numbers, next.attempts i = s.attempts i ++ commands ∧
    numbers.Pairwise (· < ·) ∧ (∀ number ∈ numbers, first ≤ number ∧ number < last) ∧
    List.Forall₂ (fun a number => a.Follows s.routing ∧ a.Heard (serial 0 number)) commands numbers

/-- Whatever is done and whichever sends fail: the commands for a slot carry its numbers in
order, over every change of the routing, at most eight for an operation, and none twice within
a round of the counter; each goes where the routing in force has the slot, and a listener on
the stream that is set there hears it as it was meant; equal bytes are the same command; and no
receiver takes one for audio or video. -/
theorem commands_heard (Picture : Type*) (failure : Nat → Option Int)
    (operations : List Operation) (i : Fin videoSlotCount) :
    (∃ taken : Nat → Nat, taken 0 = 0 ∧
      ∀ front operation back, operations = front ++ operation :: back →
        Heard i (after failure front) ((after failure front).perform failure operation)
          (taken front.length) (taken (front.length + 1))) ∧
    ∀ a ∈ (after failure operations).attempts i,
      (∀ j, ∀ b ∈ (after failure operations).attempts j, a.packet.bytes = b.packet.bytes →
        a.action = b.action ∧ a.x = b.x ∧ a.y = b.y) ∧
      ∀ (current polled : Routing) (sender : UInt32) (socket : Nat) (readings : Readings)
        (inbox : Inbox Picture),
        current.receiveOnce polled ⟨a.packet.bytes, sender, socket⟩ readings inbox = inbox := by
  refine ⟨?_, fun a member => ?_⟩
  · have fresh : ({} : MouseReturn).sequences i = serial 0 0 := rfl
    obtain ⟨taken, begins, follows⟩ := run_counts failure operations fresh
    refine ⟨taken, begins, fun front operation back split => ?_⟩
    obtain ⟨few, order, _, commands, numbers, traced, ordered, within, carried⟩ :=
      follows front operation back split
    exact ⟨⟨order, few⟩, commands, numbers, traced, ordered, within,
      carried.imp fun _ _ both => ⟨both.1, both.2.heard⟩⟩
  · obtain ⟨number, one⟩ := after_numbered failure operations i a member
    refine ⟨?_, ?_⟩
    · intro j b other same
      obtain ⟨number', second⟩ := after_numbered failure operations j b other
      exact one.command_eq second same
    · intro current polled sender socket readings inbox
      obtain ⟨_, left, top, _, _, bytes⟩ := one.datagram
      rw [bytes]
      exact receiveOnce_mouseDatagram current polled sender socket readings inbox

/-- The third number of that drag goes to a command that cannot be built. -/
theorem commands_heard_leaving :
    let pressed := after (fun _ => none) (leavingDrag.take 2)
    (pressed.perform (fun _ => none) (.move 0 4096 20)).attempts 0 = pressed.attempts 0 ++
        [leavingAttempt 3 .leftUp, leavingAttempt 4 .leftUp, leavingAttempt 5 .leftUp] ∧
      ∃ first last, Heard 0 pressed (pressed.perform (fun _ => none) (.move 0 4096 20))
        first last := by
  intro pressed
  obtain ⟨taken, _, heard⟩ := (commands_heard Unit (fun _ => none) leavingDrag 0).1
  exact ⟨by decide +kernel, _, _, heard (leavingDrag.take 2) (.move 0 4096 20) [] rfl⟩

end MouseReturn

end VbanStream
