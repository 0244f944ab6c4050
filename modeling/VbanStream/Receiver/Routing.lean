import VbanStream.Protocol.Network

/-! What `configure` checks and prepares before it touches anything: the
validation of a configuration and the routing table made from it. -/

namespace VbanStream

/-- One of the two loops of `validate`: every enabled stream has an address, a
valid name, and no other stream of its kind has both. -/
def checkStreams {n : Nat} (parse : Parse) (title : Fin n → String) (taken : String)
    (enabled : Fin n → Bool) (ip : Fin n → String) (name : Fin n → StreamName) :
    List (Fin n) → List (UInt32 × StreamName) → Option String
  | [], _ => none
  | i :: rest, definitions =>
    if enabled i then
      match parse (ip i) with
      | none => some (title i ++ "Enter a valid sender IPv4 address.")
      | some address =>
        if validStreamName (name i) = false then
          some (title i ++ "Stream name must contain 1 to 16 printable ASCII characters.")
        else if (address, name i) ∈ definitions then some (title i ++ taken)
        else checkStreams parse title taken enabled ip name rest ((address, name i) :: definitions)
    else checkStreams parse title taken enabled ip name rest definitions

def validateSlots (parse : Parse) (config : Config) : Option String :=
  checkStreams parse (fun i => "Slot " ++ toString (i.val + 1) ++ ": ")
    ("This sender and stream are already configured. Select the same slot in multiple OBS " ++
      "sources instead.")
    (fun i => (config.slots i).enabled) config.ip (fun i => (config.slots i).streamName)
    (List.finRange slotCount) []

def validateVideos (parse : Parse) (config : Config) : Option String :=
  checkStreams parse (fun i => "Video " ++ toString (i.val + 1) ++ ": ")
    ("This video stream is already configured. Select the same slot in multiple OBS video " ++
      "sources.")
    (fun i => (config.videos i).enabled) (fun i => (config.videos i).senderIp)
    (fun i => (config.videos i).streamName) (List.finRange videoSlotCount) []

/-- The first complaint about a configuration, if there is one. -/
def validate (parse : Parse) (config : Config) : Option String :=
  if config.port = 0 then some "UDP port must be 1 to 65535."
  else (validateSlots parse config).or (validateVideos parse config)

/-- Sockets are told apart by identity: no two sockets of a run share a number. -/
structure Routing where
  config : Config := {}
  addresses : Fin slotCount → UInt32 := fun _ => 0
  videoAddresses : Fin videoSlotCount → UInt32 := fun _ => 0
  socket : Option Nat := none
  generation : Nat := 0

namespace Routing

/-- Some audio or video slot listens. -/
def listens (config : Config) : Bool :=
  (List.finRange slotCount).any (fun i => (config.slots i).enabled) ||
    (List.finRange videoSlotCount).any fun i => (config.videos i).enabled

/-- The port is unchanged, so the bound socket stays. -/
def keepsSocket (old : Routing) (config : Config) : Bool :=
  listens config && old.socket.isSome && old.config.port == config.port

/-- The routing that `configure` prepares; `fresh` is the socket it binds where
the old one cannot stay. -/
def prepare (parse : Parse) (old : Routing) (config : Config) (fresh : Nat) : Routing :=
  { config
    addresses := fun i =>
      if (config.slots i).enabled then (parse (config.ip i)).getD 0 else 0
    videoAddresses := fun i =>
      if (config.videos i).enabled then (parse (config.videos i).senderIp).getD 0 else 0
    socket := if keepsSocket old config then old.socket
      else if listens config then some fresh else none }

/-- The slots whose buffers `configure` resets. -/
def changes (old : Routing) (config : Config) (i : Fin slotCount) : Bool :=
  (old.config.slots i).enabled != (config.slots i).enabled ||
    (old.config.slots i).streamName != (config.slots i).streamName ||
    old.config.ip i != config.ip i || old.config.port != config.port

end Routing

section Streams

variable {n : Nat} {parse : Parse} {title : Fin n → String} {taken : String}
  {enabled : Fin n → Bool} {ip : Fin n → String} {name : Fin n → StreamName}
  {streams : List (Fin n)} {definitions : List (UInt32 × StreamName)}

/-- What the loop has checked of its first stream. -/
theorem checkStreams_cons {head : Fin n}
    (valid : checkStreams parse title taken enabled ip name (head :: streams) definitions = none) :
    (enabled head = false ∧
        checkStreams parse title taken enabled ip name streams definitions = none) ∨
      ∃ address, parse (ip head) = some address ∧ (address, name head) ∉ definitions ∧
        checkStreams parse title taken enabled ip name streams
          ((address, name head) :: definitions) = none := by
  unfold checkStreams at valid
  by_cases on : enabled head = true
  · right
    rw [if_pos on] at valid
    cases parsed : parse (ip head) with
    | none => simp [parsed] at valid
    | some address =>
      simp only [parsed] at valid
      split at valid
      · cases valid
      · split at valid
        · cases valid
        · exact ⟨address, rfl, ‹_›, valid⟩
  · rw [if_neg on] at valid
    exact .inl ⟨eq_false_of_ne_true on, valid⟩

theorem checkStreams_parses
    (valid : checkStreams parse title taken enabled ip name streams definitions = none) :
    ∀ i ∈ streams, enabled i = true → (parse (ip i)).isSome := by
  induction streams generalizing definitions with
  | nil => simp
  | cons head rest ih =>
    intro i member on
    rcases checkStreams_cons valid with ⟨off, later⟩ | ⟨address, parsed, _, later⟩
    · rcases List.mem_cons.mp member with rfl | inside
      · rw [off] at on
        cases on
      · exact ih later i inside on
    · rcases List.mem_cons.mp member with rfl | inside
      · rw [parsed]
        rfl
      · exact ih later i inside on

/-- No two enabled streams of a valid list have the same sender and name, and none repeats
an earlier definition. -/
theorem checkStreams_distinct
    (valid : checkStreams parse title taken enabled ip name streams definitions = none) :
    (∀ i ∈ streams, enabled i = true → ∀ address, parse (ip i) = some address →
      (address, name i) ∉ definitions) ∧
      streams.Pairwise fun i j => enabled i = true → enabled j = true →
        parse (ip i) = parse (ip j) → name i ≠ name j := by
  induction streams generalizing definitions with
  | nil => simp
  | cons head rest ih =>
    rcases checkStreams_cons valid with ⟨off, later⟩ | ⟨value, parsed, fresh, later⟩
    · obtain ⟨unused, apart⟩ := ih later
      refine ⟨?_, List.pairwise_cons.mpr ⟨fun _ _ on => (by simp [off] at on), apart⟩⟩
      intro i member on
      rcases List.mem_cons.mp member with rfl | inside
      · rw [off] at on
        cases on
      · exact unused i inside on
    · obtain ⟨unused, apart⟩ := ih later
      refine ⟨?_, List.pairwise_cons.mpr ⟨?_, apart⟩⟩
      · intro i member on address same
        rcases List.mem_cons.mp member with rfl | inside
        · rw [parsed] at same
          cases same
          exact fresh
        · exact fun known => unused i inside on address same (List.mem_cons_of_mem _ known)
      · intro i inside _ on same equal
        apply unused i inside on value (same.symm.trans parsed)
        rw [← equal]
        exact List.mem_cons_self

/-- A valid list of all streams tells them apart by sender and name. -/
theorem checkStreams_injective
    (valid : checkStreams parse title taken enabled ip name (List.finRange n) definitions = none)
    (i j : Fin n) (first : enabled i = true) (second : enabled j = true)
    (sender : parse (ip i) = parse (ip j)) (named : name i = name j) : i = j := by
  let Apart (i j : Fin n) : Prop := enabled i = true → enabled j = true →
    parse (ip i) = parse (ip j) → name i ≠ name j
  have symmetric : Std.Symm Apart := by
    refine ⟨fun i j apart second first sender named => ?_⟩
    exact apart first second sender.symm named.symm
  have apart : (List.finRange n).Pairwise Apart := (checkStreams_distinct valid).2
  by_contra other
  exact apart.forall (List.mem_finRange i) (List.mem_finRange j) other first second sender named

theorem checkStreams_explains {message : String} (named : taken ≠ "")
    (invalid : checkStreams parse title taken enabled ip name streams definitions = some message) :
    message ≠ "" := by
  induction streams generalizing definitions with
  | nil => cases invalid
  | cons head rest ih =>
    unfold checkStreams at invalid
    by_cases on : enabled head = true
    · rw [if_pos on] at invalid
      cases address : parse (ip head) with
      | none =>
        simp only [address, Option.some.injEq] at invalid
        simp [← invalid]
      | some value =>
        simp only [address] at invalid
        split at invalid
        · cases invalid
          simp
        · split at invalid
          · cases invalid
            simp [named]
          · exact ih invalid
    · rw [if_neg on] at invalid
      exact ih invalid

end Streams

theorem validate_explains {parse : Parse} {config : Config} {message : String}
    (invalid : validate parse config = some message) : message ≠ "" := by
  unfold validate at invalid
  split at invalid
  · cases invalid
    simp
  · rcases Option.or_eq_some_iff.mp invalid with slots | ⟨_, videos⟩
    · exact checkStreams_explains (by simp) slots
    · exact checkStreams_explains (by simp) videos

theorem validate_slots {parse : Parse} {config : Config} (valid : validate parse config = none) :
    config.port ≠ 0 ∧ ∀ i, (config.slots i).enabled = true → (parse (config.ip i)).isSome := by
  unfold validate at valid
  split at valid
  · cases valid
  · rename_i port
    rw [Option.or_eq_none_iff] at valid
    exact ⟨port, fun i => checkStreams_parses valid.1 i (List.mem_finRange i)⟩

theorem validate_videos {parse : Parse} {config : Config} (valid : validate parse config = none)
    (i : Fin videoSlotCount) (enabled : (config.videos i).enabled = true) :
    (parse (config.videos i).senderIp).isSome := by
  unfold validate at valid
  split at valid
  · cases valid
  · rw [Option.or_eq_none_iff] at valid
    exact checkStreams_parses valid.2 i (List.mem_finRange i) enabled

/-- A valid configuration tells its streams apart by sender and name. -/
theorem validate_distinct {parse : Parse} {config : Config} (valid : validate parse config = none) :
    (∀ i j, (config.slots i).enabled = true → (config.slots j).enabled = true →
      parse (config.ip i) = parse (config.ip j) →
      (config.slots i).streamName = (config.slots j).streamName → i = j) ∧
    ∀ i j, (config.videos i).enabled = true → (config.videos j).enabled = true →
      parse (config.videos i).senderIp = parse (config.videos j).senderIp →
      (config.videos i).streamName = (config.videos j).streamName → i = j := by
  unfold validate at valid
  split at valid
  · cases valid
  · rw [Option.or_eq_none_iff] at valid
    exact ⟨checkStreams_injective valid.1, checkStreams_injective valid.2⟩

end VbanStream
