import FleetServer.Lib.Decimal
import FleetServer.Lib.Run
import FleetServer.Lib.Table

/-!
# The names the server gives to agents

An agent that registers without a name of its own is called `Task Manager-<number>`:
`handleRegisterAgent` keeps the number it already has, also under the older form `Agent-<number>`,
and otherwise takes the next one of `GetNextAgentNumber`, a query over the names in the database.
The name is written in a later transaction, so that a call has read the names before others have
written theirs; users rename and delete agents at any time.

`names_unique` says when no two agents are given one number: it is the registrations that draw a
number while another one holds it, and the names in numbered form that come from outside, that have
to be excluded.  `number_kept` is about one agent, whatever the others do.
-/

set_option autoImplicit false

namespace FleetServer
namespace Grpc

open GoString GuardedRun

/-! ## Names -/

def isGenericPlaceholderName (name : String) : Bool :=
  toLower (trimSpace name) ∈ ["", "fleet agent", "robot agent", "agent", "task manager"]

def extractAutoAssignedSequence (name : String) : Option ℤ :=
  let trimmed := trimSpace name
  match ["Task Manager-", "Agent-"].find? (hasPrefix trimmed ·) with
  | none => none
  | some start =>
    let seqText := trimSpace (trimPrefix trimmed start)
    if seqText = "" then none else Decimal.atoi seqText

def isAutoAssignedAgentName (name : String) : Bool :=
  isGenericPlaceholderName name || (extractAutoAssignedSequence name).isSome

def formatTaskManagerName (sequence : ℤ) : String :=
  "Task Manager-" ++ String.ofList (Decimal.padded 3 (max sequence 1).toNat)

/-- The number behind the start of a name, as the database matches `<start>[0-9]+`. -/
def matchedNumber (start name : String) : Option ℕ :=
  if hasPrefix name start then Decimal.parse (name.toList.drop start.toList.length) else none

/-- The number that the query of `GetNextAgentNumber` finds in a name. -/
def queriedNumber (name : String) : Option ℕ :=
  (matchedNumber "Task Manager-" name).or (matchedNumber "Agent-" name)

/-! ## The database -/

/-- The node of an agent, as far as its name goes. -/
structure NamedAgent where
  id : String
  name : String
  deriving DecidableEq

abbrev NameTable : Type := Table String NamedAgent NamedAgent.id

/-- `GetNextAgentNumber`.  A number that is too large for the database makes the query fail; one
more than the largest number of 64 bits is the smallest one. -/
def getNextAgentNumber (agents : NameTable) : Option ℤ :=
  let nums := agents.rows.filterMap fun agent ↦ queriedNumber agent.name
  if nums.any (2 ^ 63 ≤ ·) then none
  else match nums.max? with
    | none => some 1
    | some maxNum => some (if maxNum + 1 = 2 ^ 63 then -2 ^ 63 else maxNum + 1)

/-- What a call of `handleRegisterAgent` is made with, once it has the id of the agent, and which of
its first queries fail. -/
structure NameRequest where
  agentID : String
  name : String := ""
  getAgentFails : Bool := false
  numberFails : Bool := false

/-- A call that is going to write the name of an agent.  `handleRegisterAgent` has to read the agent
again before it does. -/
structure NameCall where
  agentID : String
  name : String
  registering : Bool := false
  deriving DecidableEq

structure NameServer where
  agents : NameTable
  calls : List NameCall := []

namespace NameServer

variable (s : NameServer) (r : NameRequest)

/-- `GetAgent`, whose error is ignored. -/
def readAgent (agentID : String) (fails : Bool) : Option NamedAgent :=
  if fails then none else s.agents.find? agentID

/-- The name that a requested one stands for, before a number is drawn. -/
def knownName : String :=
  match s.readAgent r.agentID r.getAgentFails with
  | none => r.name
  | some existingAgent =>
    match extractAutoAssignedSequence existingAgent.name with
    | some seq => formatTaskManagerName seq
    | none =>
      if isAutoAssignedAgentName existingAgent.name then r.name else existingAgent.name

/-- The number that would be drawn. -/
def nextNum : ℤ :=
  if r.numberFails then 1 else (getNextAgentNumber s.agents).getD 1

def effectiveName : String :=
  if isAutoAssignedAgentName r.name then
    if isGenericPlaceholderName (s.knownName r) then formatTaskManagerName (s.nextNum r)
    else s.knownName r
  else r.name

end NameServer

inductive NameAction
  /-- `handleRegisterAgent`, up to the name. -/
  | register (r : NameRequest)
  /-- The rest of it: the agent is read again. -/
  | readAgain (call : NameCall) (fails : Bool)
  /-- `CreateAgent`, `ConnectRobot` and `RegisterRobot`: a name is given from outside. -/
  | create (agentID name : String)
  /-- `UpdateAgent` and `UpdateRobot`: with no new name the one that is read is written back. -/
  | update (agentID newName : String)
  /-- `CreateOrUpdateAgent`. -/
  | write (call : NameCall) (fails : Bool)
  | deleteAgent (agentID : String)

namespace NameServer

variable (s : NameServer)

def deleteAgent (agentID : String) : NameTable where
  rows := s.agents.rows.filter (·.id ≠ agentID)
  nodup := (List.filter_sublist.map NamedAgent.id).nodup s.agents.nodup

/-- The name that `handleRegisterAgent` writes. -/
def writtenName (agentID effectiveName : String) (fails : Bool) : String :=
  match s.readAgent agentID fails with
  | none => effectiveName
  | some agent => if isAutoAssignedAgentName agent.name then effectiveName else agent.name

def step : NameAction → Option NameServer
  | .register r => some { s with calls := ⟨r.agentID, s.effectiveName r, true⟩ :: s.calls }
  | .readAgain call fails =>
    if call ∈ s.calls ∧ call.registering = true then
      let name := s.writtenName call.agentID call.name fails
      some { s with calls := { call with name, registering := false } :: s.calls.erase call }
    else none
  | .create agentID name => some { s with calls := { agentID, name } :: s.calls }
  | .update agentID newName =>
    (s.agents.find? agentID).map fun agent ↦
      let name := if newName ≠ "" then newName else agent.name
      { s with calls := { agentID, name } :: s.calls }
  | .write call fails =>
    if call ∈ s.calls ∧ call.registering = false then
      some { s with
        agents := if fails then s.agents else s.agents.put ⟨call.agentID, call.name⟩
        calls := s.calls.erase call }
    else none
  | .deleteAgent agentID => some { s with agents := s.deleteAgent agentID }

/-! ## Whose number it is -/

/-- The agent has the name, or a call is going to write it. -/
def Named (agentID name : String) : Prop :=
  (∃ agent ∈ s.agents.rows, agent.id = agentID ∧ agent.name = name) ∨
    ∃ call ∈ s.calls, call.agentID = agentID ∧ call.name = name

end NameServer

/-- Both readings find the same number in a name, which is not zero, or both none. -/
def Readable (name : String) : Prop :=
  extractAutoAssignedSequence name = (queriedNumber name).map (Int.ofNat ·) ∧
    queriedNumber name ≠ some 0

instance : DecidablePred Readable := fun _ ↦ inferInstanceAs (Decidable (_ ∧ _))

/-- A name that no reading takes for a numbered one. -/
def Unnumbered (name : String) : Prop :=
  extractAutoAssignedSequence name = none ∧ queriedNumber name = none

instance : DecidablePred Unnumbered := fun _ ↦ inferInstanceAs (Decidable (_ ∧ _))

namespace NameServer

variable (s : NameServer)

/-- The names in the database can be read, and no two agents have one number. -/
def Initial : Prop :=
  s.calls = [] ∧ (∀ agent ∈ s.agents.rows, Readable agent.name) ∧
    ∀ a ∈ s.agents.rows, ∀ b ∈ s.agents.rows, ∀ n, queriedNumber a.name = some n →
      queriedNumber b.name = some n → a.id = b.id

/-- The registration asks for no number of its own, unless it has to be passed over. -/
def asksNoNumber (r : NameRequest) : Bool :=
  Unnumbered r.name || (isAutoAssignedAgentName r.name &&
    (s.readAgent r.agentID r.getAgentFails).any (!isGenericPlaceholderName ·.name))

/-- A number is drawn that no other agent is just being given. -/
def drawsAlone (r : NameRequest) : Bool :=
  !r.numberFails && (getNextAgentNumber s.agents).any fun n ↦
    0 < n && s.calls.all fun call ↦
      call.agentID = r.agentID || queriedNumber call.name ≠ some n.toNat

/-- Names from outside are not in numbered form, and numbers are drawn one by one. -/
def orderly : NameAction → Bool
  | .register r =>
    s.asksNoNumber r && (!isAutoAssignedAgentName r.name ||
      !isGenericPlaceholderName (s.knownName r) || s.drawsAlone r)
  | .create _ name => Unnumbered name
  | .update _ newName => Unnumbered newName
  | _ => true

end NameServer

variable {s s' : NameServer} {r : NameRequest} {name : String} {seq : ℤ} {n : ℕ}

/-! ## Numbers in names -/

theorem toList_formatTaskManagerName (seq : ℤ) : (formatTaskManagerName seq).toList =
    "Task Manager-".toList ++ Decimal.padded 3 (max seq 1).toNat := by
  rw [formatTaskManagerName, String.toList_append]
  exact congrArg ("Task Manager-".toList ++ ·) String.toList_ofList

theorem matchedNumber_of_parse {start : String} {digits : List Char}
    (hname : name.toList = start.toList ++ digits) (hdigits : Decimal.parse digits = some n) :
    matchedNumber start name = some n := by
  have hstart : hasPrefix name start = true := by
    rw [hasPrefix, hname]
    exact List.isPrefixOf_iff_prefix.mpr (List.prefix_append _ _)
  rw [matchedNumber, if_pos hstart, hname, List.drop_left, hdigits]

theorem queriedNumber_formatTaskManagerName (hseq : 0 < seq) :
    queriedNumber (formatTaskManagerName seq) = some seq.toNat := by
  have hmax : max seq 1 = seq := by omega
  have hlist := toList_formatTaskManagerName seq
  rw [hmax] at hlist
  rw [queriedNumber, matchedNumber_of_parse hlist (Decimal.parse_padded 3 seq.toNat),
    Option.some_or]

theorem trimSpace_formatTaskManagerName (seq : ℤ) :
    trimSpace (formatTaskManagerName seq) = formatTaskManagerName seq := by
  obtain hnil | ⟨middle, b, hb⟩ :=
    List.eq_nil_or_concat' (Decimal.padded 3 (max seq 1).toNat)
  · exact absurd hnil Decimal.padded_ne_nil
  · have hdigit : b.isDigit = true :=
      Decimal.isDigit_of_mem_padded (hb ▸ List.mem_append_right _ (List.mem_singleton_self b))
    have hname : formatTaskManagerName seq =
        String.ofList ('T' :: (("ask Manager-".toList ++ middle) ++ [b])) := by
      rw [← String.toList_inj, toList_formatTaskManagerName, hb, List.append_assoc]
      exact String.toList_ofList.symm
    rw [hname]
    exact trimSpace_of_ends (by decide) (Decimal.isSpace_of_isDigit hdigit) _

/-- **A number is read again from the name it is written into.** -/
theorem extractAutoAssignedSequence_formatTaskManagerName (hseq : 0 < seq)
    (hlarge : seq < 2 ^ 63) :
    extractAutoAssignedSequence (formatTaskManagerName seq) = some seq := by
  have hmax : max seq 1 = seq := by omega
  have hlist := toList_formatTaskManagerName seq
  rw [hmax] at hlist
  have hstart : hasPrefix (formatTaskManagerName seq) "Task Manager-" = true := by
    rw [hasPrefix, hlist]
    exact List.isPrefixOf_iff_prefix.mpr (List.prefix_append _ _)
  have hrest : trimPrefix (formatTaskManagerName seq) "Task Manager-" =
      String.ofList (Decimal.padded 3 seq.toNat) := by
    rw [trimPrefix, if_pos hstart, hlist, List.drop_left]
  have hdigits : ∀ c ∈ Decimal.padded 3 seq.toNat, c.isDigit = true :=
    fun _ ↦ Decimal.isDigit_of_mem_padded
  have hne : String.ofList (Decimal.padded 3 seq.toNat) ≠ "" := by
    rw [Ne, ← String.toList_inj, String.toList_ofList]
    exact Decimal.padded_ne_nil
  rw [extractAutoAssignedSequence, trimSpace_formatTaskManagerName,
    List.find?_cons_of_pos hstart]
  dsimp only
  rw [hrest, Decimal.trimSpace_of_isDigit hdigits, if_neg hne,
    Decimal.atoi_of_parse (Decimal.parse_padded 3 seq.toNat) (by omega)]
  exact congrArg some (Int.toNat_of_nonneg hseq.le)

theorem lt_of_extractAutoAssignedSequence (h : extractAutoAssignedSequence name = some seq) :
    seq < 2 ^ 63 := by
  rw [extractAutoAssignedSequence] at h
  dsimp only at h
  split at h
  · cases h
  · split_ifs at h
    exact Decimal.lt_of_atoi h

/-- A number that is read from a name of either form is the one that is queried. -/
theorem Readable.queriedNumber_eq (h : Readable name)
    (hseq : extractAutoAssignedSequence name = some seq) :
    queriedNumber name = some seq.toNat ∧ 0 < seq ∧ seq < 2 ^ 63 := by
  have hlarge := lt_of_extractAutoAssignedSequence hseq
  obtain ⟨n, hn, hcast⟩ := Option.map_eq_some_iff.mp (h.1.symm.trans hseq)
  obtain rfl : (n : ℤ) = seq := hcast
  have hzero : n ≠ 0 := fun hzero ↦ h.2 (hzero ▸ hn)
  exact ⟨by rw [hn, Int.toNat_natCast], by omega, hlarge⟩

theorem Readable.unnumbered (h : Readable name) (hnone : extractAutoAssignedSequence name = none) :
    Unnumbered name :=
  ⟨hnone, Option.map_eq_none_iff.mp (h.1.symm.trans hnone)⟩

theorem Unnumbered.readable (h : Unnumbered name) : Readable name := by
  rw [Readable, h.1, h.2]
  exact ⟨rfl, nofun⟩

theorem readable_formatTaskManagerName (hseq : 0 < seq) (hlarge : seq < 2 ^ 63) :
    Readable (formatTaskManagerName seq) := by
  rw [Readable, extractAutoAssignedSequence_formatTaskManagerName hseq hlarge,
    queriedNumber_formatTaskManagerName hseq]
  refine ⟨congrArg some (Int.toNat_of_nonneg hseq.le).symm, fun h ↦ ?_⟩
  have := Option.some.inj h
  omega

/-- The next number is new. -/
theorem getNextAgentNumber_spec {agents : NameTable} (h : getNextAgentNumber agents = some seq)
    (hseq : 0 < seq) :
    seq < 2 ^ 63 ∧ ∀ agent ∈ agents.rows, queriedNumber agent.name ≠ some seq.toNat := by
  rw [getNextAgentNumber] at h
  split_ifs at h with hany
  split at h
  · rename_i hmax
    obtain rfl : 1 = seq := Option.some.inj h
    rw [List.max?_eq_none_iff, List.filterMap_eq_nil_iff] at hmax
    refine ⟨by omega, fun agent hagent ↦ ?_⟩
    rw [hmax agent hagent]
    exact nofun
  · rename_i maxNum hmax
    have hmaxNum := List.max?_mem hmax
    rw [Bool.not_eq_true, List.any_eq_false] at hany
    have hsmall : ¬2 ^ 63 ≤ maxNum := by simpa using hany maxNum hmaxNum
    have heq := Option.some.inj h
    split_ifs at heq with hwrap
    · omega
    · refine ⟨by omega, fun agent hagent hnum ↦ ?_⟩
      have hmem : seq.toNat ∈ agents.rows.filterMap fun agent ↦ queriedNumber agent.name :=
        List.mem_filterMap.mpr ⟨agent, hagent, hnum⟩
      have hle := (List.max?_le_iff hmax).mp le_rfl _ hmem
      omega

/-! ## No two agents have one number -/

namespace NameServer

variable {agentID agentID' name' : String}

/-- Every name can be read, and a number belongs to one agent. -/
structure Inv (s : NameServer) : Prop where
  readable : ∀ agentID name, s.Named agentID name → Readable name
  unique : ∀ agentID agentID' name name' n, s.Named agentID name → s.Named agentID' name' →
    queriedNumber name = some n → queriedNumber name' = some n → agentID = agentID'

/-- The agent can be given the name. -/
def Fits (s : NameServer) (agentID name : String) : Prop :=
  Readable name ∧ ∀ n agentID' name', queriedNumber name = some n → s.Named agentID' name' →
    queriedNumber name' = some n → agentID' = agentID

theorem Inv.fits_of_same (h : s.Inv) (hnamed : s.Named agentID name') (hname : Readable name)
    (hsame : queriedNumber name = queriedNumber name') : s.Fits agentID name :=
  ⟨hname, fun n _ _ hn hother hn' ↦
    h.unique _ _ _ _ n hother hnamed hn' (hsame ▸ hn)⟩

theorem Inv.fits_of_named (h : s.Inv) (hnamed : s.Named agentID name) : s.Fits agentID name :=
  h.fits_of_same hnamed (h.readable _ _ hnamed) rfl

theorem fits_of_unnumbered (h : Unnumbered name) : s.Fits agentID name := by
  refine ⟨h.readable, fun n _ _ hn ↦ ?_⟩
  rw [h.2] at hn
  cases hn

theorem Inv.mono (h : s.Inv)
    (hsub : ∀ agentID name, s'.Named agentID name → s.Named agentID name) : s'.Inv where
  readable _ _ hnamed := h.readable _ _ (hsub _ _ hnamed)
  unique _ _ _ _ n hnamed hnamed' := h.unique _ _ _ _ n (hsub _ _ hnamed) (hsub _ _ hnamed')

/-- One more name. -/
theorem Inv.extend (h : s.Inv) (hfits : s.Fits agentID name)
    (hsub : ∀ agentID' name', s'.Named agentID' name' →
      s.Named agentID' name' ∨ agentID' = agentID ∧ name' = name) : s'.Inv := by
  constructor
  · intro agentID' name' hnamed
    rcases hsub _ _ hnamed with hold | ⟨-, rfl⟩
    · exact h.readable _ _ hold
    · exact hfits.1
  · intro a a' m m' n hnamed hnamed' hn hn'
    rcases hsub _ _ hnamed with hold | ⟨rfl, rfl⟩
    · rcases hsub _ _ hnamed' with hold' | ⟨rfl, rfl⟩
      · exact h.unique _ _ _ _ n hold hold' hn hn'
      · exact hfits.2 n _ _ hn' hold hn
    · rcases hsub _ _ hnamed' with hold' | ⟨rfl, rfl⟩
      · exact (hfits.2 n _ _ hn hold' hn').symm
      · rfl

theorem named_of_mem {agent : NamedAgent} (h : agent ∈ s.agents.rows) :
    s.Named agent.id agent.name :=
  .inl ⟨agent, h, rfl, rfl⟩

theorem named_of_call {call : NameCall} (h : call ∈ s.calls) : s.Named call.agentID call.name :=
  .inr ⟨call, h, rfl, rfl⟩

theorem mem_of_readAgent {fails : Bool} {agent : NamedAgent}
    (h : s.readAgent agentID fails = some agent) : agent ∈ s.agents.rows ∧ agent.id = agentID := by
  rw [readAgent] at h
  split_ifs at h
  exact Table.find?_eq_some_iff.mp h

/-- A call comes in. -/
theorem Inv.push (h : s.Inv) {registering : Bool} {calls : List NameCall}
    (hfits : s.Fits agentID name) (hcalls : calls ⊆ s.calls) :
    ({ s with calls := ⟨agentID, name, registering⟩ :: calls } : NameServer).Inv := by
  refine h.extend hfits fun agentID' name' hnamed ↦ ?_
  rcases hnamed with hrow | ⟨call', hcall', hid, hname⟩
  · exact .inl (.inl hrow)
  · rcases List.mem_cons.mp hcall' with rfl | hold
    · exact .inr ⟨hid.symm, hname.symm⟩
    · exact .inl (.inr ⟨call', hcalls hold, hid, hname⟩)

/-- What a registration finds out before it draws a number. -/
theorem Inv.fits_knownName (h : s.Inv) (hasks : s.asksNoNumber r = true) :
    s.Fits r.agentID (s.knownName r) := by
  have hrequested : s.readAgent r.agentID r.getAgentFails = none ∨
      (∃ agent, s.readAgent r.agentID r.getAgentFails = some agent ∧
        isGenericPlaceholderName agent.name = true) → Unnumbered r.name := by
    intro hread
    rw [asksNoNumber, Bool.or_eq_true, decide_eq_true_eq, Bool.and_eq_true] at hasks
    rcases hasks with hunnumbered | ⟨-, hany⟩
    · exact hunnumbered
    · obtain ⟨agent, hagent, hnot⟩ := (Option.any_eq_true _ _).mp hany
      rcases hread with hnone | ⟨agent', hagent', hplaceholder⟩
      · rw [hnone] at hagent
        cases hagent
      · obtain rfl := Option.some.inj (hagent.symm.trans hagent')
        rw [hplaceholder] at hnot
        cases hnot
  rw [knownName]
  cases hread : s.readAgent r.agentID r.getAgentFails with
  | none => exact fits_of_unnumbered (hrequested (.inl hread))
  | some agent =>
    obtain ⟨hmem, hid⟩ := mem_of_readAgent hread
    have hnamed : s.Named r.agentID agent.name := hid ▸ named_of_mem hmem
    have hreadable := h.readable _ _ hnamed
    dsimp only
    cases hseq : extractAutoAssignedSequence agent.name with
    | some seq =>
      obtain ⟨hnumber, hpos, hlarge⟩ := hreadable.queriedNumber_eq hseq
      exact h.fits_of_same hnamed (readable_formatTaskManagerName hpos hlarge)
        ((queriedNumber_formatTaskManagerName hpos).trans hnumber.symm)
    | none =>
      dsimp only
      split_ifs with hauto
      · rw [isAutoAssignedAgentName, hseq, Option.isSome_none, Bool.or_false] at hauto
        exact fits_of_unnumbered (hrequested (.inr ⟨agent, hread, hauto⟩))
      · exact h.fits_of_named hnamed

/-- A number that is drawn. -/
theorem fits_nextNum (h : s.drawsAlone r = true) :
    s.Fits r.agentID (formatTaskManagerName (s.nextNum r)) := by
  rw [drawsAlone, Bool.and_eq_true, Bool.not_eq_true'] at h
  obtain ⟨hquery, hany⟩ := h
  obtain ⟨seq, hseq, hfree⟩ := (Option.any_eq_true _ _).mp hany
  rw [Bool.and_eq_true, decide_eq_true_eq, List.all_eq_true] at hfree
  obtain ⟨hpos, hcalls⟩ := hfree
  obtain ⟨hlarge, hrows⟩ := getNextAgentNumber_spec hseq hpos
  have hnext : s.nextNum r = seq := by
    rw [nextNum, hquery, hseq]
    rfl
  rw [hnext]
  refine ⟨readable_formatTaskManagerName hpos hlarge, fun n agentID' name' hn hnamed hn' ↦ ?_⟩
  rw [queriedNumber_formatTaskManagerName hpos, Option.some.injEq] at hn
  obtain rfl := hn
  rcases hnamed with ⟨agent, hagent, -, rfl⟩ | ⟨call, hcall, rfl, rfl⟩
  · exact absurd hn' (hrows agent hagent)
  · have hother := hcalls call hcall
    rw [Bool.or_eq_true, decide_eq_true_eq, decide_eq_true_eq] at hother
    exact hother.resolve_right fun hne ↦ hne hn'

theorem Inv.fits_effectiveName (h : s.Inv) (hok : s.orderly (.register r) = true) :
    s.Fits r.agentID (s.effectiveName r) := by
  rw [orderly, Bool.and_eq_true] at hok
  obtain ⟨hasks, hdraws⟩ := hok
  rw [effectiveName]
  split_ifs with hauto hplaceholder
  · rw [hauto, hplaceholder] at hdraws
    exact fits_nextNum (by simpa using hdraws)
  · exact h.fits_knownName hasks
  · rw [asksNoNumber, Bool.or_eq_true, decide_eq_true_eq, Bool.and_eq_true] at hasks
    exact fits_of_unnumbered (hasks.resolve_right fun hknown ↦ hauto hknown.1)

theorem Inv.fits_writtenName (h : s.Inv) {call : NameCall} (hcall : call ∈ s.calls)
    (fails : Bool) : s.Fits call.agentID (s.writtenName call.agentID call.name fails) := by
  have heffective := h.fits_of_named (named_of_call hcall)
  rw [writtenName]
  cases hread : s.readAgent call.agentID fails with
  | none => exact heffective
  | some agent =>
    obtain ⟨hmem, hid⟩ := mem_of_readAgent hread
    dsimp only
    split_ifs
    · exact heffective
    · exact hid ▸ h.fits_of_named (named_of_mem hmem)

theorem Inv.step (h : s.Inv) {a : NameAction} (hok : s.orderly a = true)
    (hstep : s.step a = some s') : s'.Inv := by
  cases a with
  | register r =>
    obtain rfl := Option.some.inj hstep
    exact h.push (h.fits_effectiveName hok) (List.Subset.refl _)
  | readAgain call fails =>
    obtain ⟨hcall, heq⟩ := Option.ite_none_right_eq_some.mp hstep
    obtain rfl := Option.some.inj heq
    exact h.push (h.fits_writtenName hcall.1 fails) List.erase_subset
  | create agentID name =>
    obtain rfl := Option.some.inj hstep
    rw [orderly, decide_eq_true_eq] at hok
    exact h.push (fits_of_unnumbered hok) (List.Subset.refl _)
  | update agentID newName =>
    rw [orderly, decide_eq_true_eq] at hok
    obtain ⟨agent, hagent, rfl⟩ := Option.map_eq_some_iff.mp hstep
    obtain ⟨hmem, hid⟩ := Table.find?_eq_some_iff.mp hagent
    refine h.push ?_ (List.Subset.refl _)
    split_ifs
    · exact fits_of_unnumbered hok
    · exact hid ▸ h.fits_of_named (named_of_mem hmem)
  | write call fails =>
    obtain ⟨hcall, heq⟩ := Option.ite_none_right_eq_some.mp hstep
    obtain rfl := Option.some.inj heq
    refine h.mono fun agentID name hnamed ↦ ?_
    rcases hnamed with ⟨agent, hagent, rfl, rfl⟩ | ⟨call', hcall', hid, hname⟩
    · dsimp only at hagent
      split_ifs at hagent
      · exact named_of_mem hagent
      · rcases Table.mem_rows_put.mp hagent with rfl | ⟨hold, -⟩
        · exact named_of_call hcall.1
        · exact named_of_mem hold
    · exact .inr ⟨call', List.erase_subset hcall', hid, hname⟩
  | deleteAgent agentID =>
    obtain rfl := Option.some.inj hstep
    refine h.mono fun agentID' name' hnamed ↦ hnamed.imp_left ?_
    rintro ⟨agent, hagent, hid, hname⟩
    exact ⟨agent, (List.mem_filter.mp hagent).1, hid, hname⟩

theorem Initial.inv (h : s.Initial) : s.Inv := by
  obtain ⟨hcalls, hreadable, hunique⟩ := h
  have hrow : ∀ agentID name, s.Named agentID name →
      ∃ agent ∈ s.agents.rows, agent.id = agentID ∧ agent.name = name := by
    rintro agentID name (hrow | ⟨call, hcall, -⟩)
    · exact hrow
    · rw [hcalls] at hcall
      cases hcall
  constructor
  · intro agentID name hnamed
    obtain ⟨agent, hagent, -, rfl⟩ := hrow _ _ hnamed
    exact hreadable agent hagent
  · intro agentID agentID' name name' n hnamed hnamed' hn hn'
    obtain ⟨agent, hagent, rfl, rfl⟩ := hrow _ _ hnamed
    obtain ⟨agent', hagent', rfl, rfl⟩ := hrow _ _ hnamed'
    exact hunique agent hagent agent' hagent' n hn hn'

/-- **No two agents have one number**, in whatever order the queries and the writes of the calls
come. -/
theorem names_unique (h : Reachable step (fun s a ↦ s.orderly a = true) Initial s) :
    (∀ agent ∈ s.agents.rows, Readable agent.name) ∧
      ∀ a ∈ s.agents.rows, ∀ b ∈ s.agents.rows, ∀ n, queriedNumber a.name = some n →
        queriedNumber b.name = some n → a = b := by
  have hinv : s.Inv := h.invariant (fun _ ↦ Initial.inv) fun _ _ _ _ hinv hok ↦ hinv.step hok
  refine ⟨fun agent hagent ↦ hinv.readable _ _ (named_of_mem hagent),
    fun a ha b hb n hna hnb ↦ Table.eq_of_key_eq ha hb ?_⟩
  exact hinv.unique _ _ _ _ n (named_of_mem ha) (named_of_mem hb) hna hnb

/-- An agent of an older server that registers again while another one registers. -/
def legacyAgents : NameServer where
  agents := { rows := [⟨"a1", "Agent-007"⟩], nodup := by decide }

def secondAgent : List NameAction :=
  [.register { agentID := "a1", name := "Fleet Agent" }, .register { agentID := "a2" },
    .readAgain ⟨"a2", "Task Manager-008", true⟩ false,
    .write ⟨"a2", "Task Manager-008", false⟩ false,
    .readAgain ⟨"a1", "Task Manager-007", true⟩ false,
    .write ⟨"a1", "Task Manager-007", false⟩ false]

theorem initial_legacyAgents : legacyAgents.Initial := by
  have hrow : ∀ agent ∈ legacyAgents.agents.rows, agent = ⟨"a1", "Agent-007"⟩ :=
    fun _ ↦ List.mem_singleton.mp
  refine ⟨rfl, by decide +kernel, fun a ha b hb _ _ _ ↦ ?_⟩
  rw [hrow a ha, hrow b hb]

theorem names_unique_secondAgent : ∃ s : NameServer,
    (s.agents.rows = [⟨"a1", "Task Manager-007"⟩, ⟨"a2", "Task Manager-008"⟩]) ∧
      (∀ agent ∈ s.agents.rows, Readable agent.name) ∧
        ∀ a ∈ s.agents.rows, ∀ b ∈ s.agents.rows, ∀ n, queriedNumber a.name = some n →
          queriedNumber b.name = some n → a = b := by
  obtain ⟨s, hreach, hrows⟩ := exists_reachable_of_run step (fun s a ↦ s.orderly a = true)
    initial_legacyAgents secondAgent (P := fun s ↦ s.agents.rows =
      [⟨"a1", "Task Manager-007"⟩, ⟨"a2", "Task Manager-008"⟩]) (by decide +kernel)
  exact ⟨s, hrows, names_unique hreach⟩

/-- Two agents that register at once are given one name. -/
example :
    ([.register { agentID := "a1" }, .register { agentID := "a2" },
      .readAgain ⟨"a1", "Task Manager-001", true⟩ false,
      .readAgain ⟨"a2", "Task Manager-001", true⟩ false,
      .write ⟨"a1", "Task Manager-001", false⟩ false,
      .write ⟨"a2", "Task Manager-001", false⟩ false].foldlM step { agents := ⟨[], by decide⟩ }).map
        (·.agents.rows) = some [⟨"a2", "Task Manager-001"⟩, ⟨"a1", "Task Manager-001"⟩] := by
  decide +kernel

/-! ## An agent keeps its number -/

/-- The name has the number by either reading. -/
def Numbered (n : ℕ) (name : String) : Prop :=
  extractAutoAssignedSequence name = some (n : ℤ) ∧ queriedNumber name = some n

/-- The agent is there, and all its names have the number. -/
def HasNumber (s : NameServer) (agentID : String) (n : ℕ) : Prop :=
  (∃ agent ∈ s.agents.rows, agent.id = agentID) ∧ ∀ name, s.Named agentID name → Numbered n name

/-- The agent stays, it is found when it registers, and nobody gives it a name of its own. -/
def keepsNumber (agentID : String) : NameAction → Bool
  | .register r => r.agentID ≠ agentID || (isAutoAssignedAgentName r.name && !r.getAgentFails)
  | .create agentID' _ => agentID' ≠ agentID
  | .update agentID' newName => agentID' ≠ agentID || newName = ""
  | .deleteAgent agentID' => agentID' ≠ agentID
  | _ => true

theorem not_isGenericPlaceholderName_formatTaskManagerName (seq : ℤ) :
    isGenericPlaceholderName (formatTaskManagerName seq) = false := by
  have hwords : ∀ word ∈ ["", "fleet agent", "robot agent", "agent", "task manager"],
      word.toList.length ≤ 12 := by
    decide
  have hdigits := List.length_pos_of_ne_nil (@Decimal.padded_ne_nil 3 (max seq 1).toNat)
  have hlength : (toLower (formatTaskManagerName seq)).toList.length =
      13 + (Decimal.padded 3 (max seq 1).toNat).length := by
    rw [toLower, String.toList_ofList, List.length_map, toList_formatTaskManagerName,
      List.length_append]
    rfl
  rw [isGenericPlaceholderName, trimSpace_formatTaskManagerName, decide_eq_false_iff_not]
  intro hmem
  have hshort := hwords _ hmem
  omega

theorem numbered_formatTaskManagerName (hn : n ≠ 0) (hlarge : n < 2 ^ 63) :
    Numbered n (formatTaskManagerName n) := by
  refine ⟨extractAutoAssignedSequence_formatTaskManagerName (by omega) (by omega), ?_⟩
  rw [queriedNumber_formatTaskManagerName (by omega), Int.toNat_natCast]

theorem Numbered.isAutoAssignedAgentName (h : Numbered n name) :
    isAutoAssignedAgentName name = true := by
  rw [Grpc.isAutoAssignedAgentName, h.1, Option.isSome_some, Bool.or_true]

theorem HasNumber.push (h : s.HasNumber agentID n) {registering : Bool} {calls : List NameCall}
    (hname : agentID' = agentID → Numbered n name) (hcalls : calls ⊆ s.calls) :
    ({ s with calls := ⟨agentID', name, registering⟩ :: calls } : NameServer).HasNumber
      agentID n := by
  refine ⟨h.1, fun name' hnamed ↦ ?_⟩
  rcases hnamed with hrow | ⟨call, hcall, hid, rfl⟩
  · exact h.2 _ (.inl hrow)
  · rcases List.mem_cons.mp hcall with rfl | hold
    · exact hname hid
    · exact h.2 _ (.inr ⟨call, hcalls hold, hid, rfl⟩)

theorem HasNumber.effectiveName (h : s.HasNumber r.agentID n) (hn : n ≠ 0)
    (hauto : isAutoAssignedAgentName r.name = true) (hread : r.getAgentFails = false) :
    Numbered n (s.effectiveName r) := by
  obtain ⟨agent, hmem, hid⟩ := h.1
  have hagent : s.agents.find? r.agentID = some agent := Table.find?_eq_some_iff.mpr ⟨hmem, hid⟩
  have hnumber : Numbered n agent.name := h.2 _ (hid ▸ named_of_mem hmem)
  have hlarge := lt_of_extractAutoAssignedSequence hnumber.1
  have hknown : s.knownName r = formatTaskManagerName n := by
    rw [knownName, readAgent, hread, if_neg Bool.false_ne_true, hagent]
    dsimp only
    rw [hnumber.1]
  rw [NameServer.effectiveName, if_pos hauto, hknown,
    not_isGenericPlaceholderName_formatTaskManagerName, if_neg Bool.false_ne_true]
  exact numbered_formatTaskManagerName hn (by omega)

theorem HasNumber.writtenName (h : s.HasNumber agentID n) (fails : Bool)
    (hname : Numbered n name) : Numbered n (s.writtenName agentID name fails) := by
  rw [NameServer.writtenName]
  cases hread : s.readAgent agentID fails with
  | none => exact hname
  | some agent =>
    obtain ⟨hmem, rfl⟩ := mem_of_readAgent hread
    dsimp only
    rw [if_pos (h.2 _ (named_of_mem hmem)).isAutoAssignedAgentName]
    exact hname

theorem HasNumber.step (h : s.HasNumber agentID n) (hn : n ≠ 0) {a : NameAction}
    (hok : keepsNumber agentID a = true) (hstep : s.step a = some s') :
    s'.HasNumber agentID n := by
  cases a with
  | register r =>
    obtain rfl := Option.some.inj hstep
    refine h.push ?_ (List.Subset.refl _)
    rintro rfl
    have hauto : isAutoAssignedAgentName r.name = true ∧ r.getAgentFails = false := by
      simpa [keepsNumber] using hok
    exact h.effectiveName hn hauto.1 hauto.2
  | readAgain call fails =>
    obtain ⟨hcall, heq⟩ := Option.ite_none_right_eq_some.mp hstep
    obtain rfl := Option.some.inj heq
    refine h.push ?_ List.erase_subset
    rintro rfl
    exact h.writtenName fails (h.2 _ (named_of_call hcall.1))
  | create agentID' name =>
    obtain rfl := Option.some.inj hstep
    refine h.push ?_ (List.Subset.refl _)
    rintro rfl
    simp [keepsNumber] at hok
  | update agentID' newName =>
    obtain ⟨agent, hagent, rfl⟩ := Option.map_eq_some_iff.mp hstep
    refine h.push ?_ (List.Subset.refl _)
    rintro rfl
    have hsame : newName = "" := by simpa [keepsNumber] using hok
    obtain ⟨hmem, hid⟩ := Table.find?_eq_some_iff.mp hagent
    rw [if_neg (not_not.mpr hsame)]
    exact h.2 _ (hid ▸ named_of_mem hmem)
  | write call fails =>
    obtain ⟨hcall, heq⟩ := Option.ite_none_right_eq_some.mp hstep
    obtain rfl := Option.some.inj heq
    obtain ⟨agent, hmem, hid⟩ := h.1
    constructor
    · dsimp only
      split_ifs
      · exact h.1
      · by_cases hsame : call.agentID = agentID
        · exact ⟨_, Table.mem_rows_put.mpr (.inl rfl), hsame⟩
        · have hne : agent.id ≠ call.agentID := hid ▸ Ne.symm hsame
          exact ⟨agent, Table.mem_rows_put.mpr (.inr ⟨hmem, hne⟩), hid⟩
    · rintro name (⟨agent', hagent', hid', rfl⟩ | ⟨call', hcall', hid', rfl⟩)
      · dsimp only at hagent'
        split_ifs at hagent'
        · exact h.2 _ (.inl ⟨agent', hagent', hid', rfl⟩)
        · rcases Table.mem_rows_put.mp hagent' with rfl | ⟨hold, -⟩
          · exact h.2 _ (.inr ⟨call, hcall.1, hid', rfl⟩)
          · exact h.2 _ (.inl ⟨agent', hold, hid', rfl⟩)
      · exact h.2 _ (.inr ⟨call', List.erase_subset hcall', hid', rfl⟩)
  | deleteAgent agentID' =>
    obtain rfl := Option.some.inj hstep
    have hother : agentID' ≠ agentID := by simpa [keepsNumber] using hok
    obtain ⟨agent, hmem, rfl⟩ := h.1
    refine ⟨⟨agent, List.mem_filter.mpr ⟨hmem, by simpa using hother.symm⟩, rfl⟩, ?_⟩
    rintro name (⟨agent', hagent', hid', rfl⟩ | hcall)
    · exact h.2 _ (.inl ⟨agent', (List.mem_filter.mp hagent').1, hid', rfl⟩)
    · exact h.2 _ (.inr hcall)

/-- **An agent keeps its number**, in the older form or the newer one, through all its
registrations and whatever happens to other agents. -/
theorem number_kept (hn : n ≠ 0) (h : Reachable step (fun _ a ↦ keepsNumber agentID a = true)
    (fun s ↦ s.HasNumber agentID n) s) :
    ∃ agent, s.agents.find? agentID = some agent ∧
      extractAutoAssignedSequence agent.name = some (n : ℤ) ∧
      queriedNumber agent.name = some n := by
  have hnumber : s.HasNumber agentID n :=
    h.invariant (fun _ hinit ↦ hinit) fun _ _ _ _ hinv hok ↦ hinv.step hn hok
  obtain ⟨agent, hmem, rfl⟩ := hnumber.1
  exact ⟨agent, Table.find?_eq_some_iff.mpr ⟨hmem, rfl⟩, hnumber.2 _ (named_of_mem hmem)⟩

theorem number_kept_secondAgent : ∃ s : NameServer,
    (s.agents.rows.map (·.name) = ["Task Manager-007", "Task Manager-008"]) ∧
      ∃ agent, s.agents.find? "a1" = some agent ∧
        extractAutoAssignedSequence agent.name = some (7 : ℤ) ∧
        queriedNumber agent.name = some 7 := by
  have hinit : legacyAgents.HasNumber "a1" 7 := by
    refine ⟨⟨_, List.mem_singleton_self _, rfl⟩, ?_⟩
    rintro name (⟨agent, hagent, -, rfl⟩ | ⟨call, hcall, -⟩)
    · obtain rfl := List.mem_singleton.mp hagent
      exact ⟨by decide +kernel, by decide +kernel⟩
    · cases hcall
  have hrun : ∃ s : NameServer, Reachable step (fun _ a ↦ keepsNumber "a1" a = true)
      (fun s ↦ s.HasNumber "a1" 7) s ∧
        s.agents.rows.map (·.name) = ["Task Manager-007", "Task Manager-008"] :=
    exists_reachable_of_run step _ hinit secondAgent (by decide +kernel)
  obtain ⟨s, hreach, hnames⟩ := hrun
  exact ⟨s, hnames, number_kept (by decide) hreach⟩

end NameServer

end Grpc
end FleetServer
