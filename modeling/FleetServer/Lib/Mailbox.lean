import Mathlib.Logic.Function.Basic
import FleetServer.Lib.Channel
import FleetServer.Lib.Run

/-!
# Calls that wait for a reply

A call sends a request under an id, puts a channel with one place into a table under that id and
waits for a reply, or gives up.  Replies come in any order, late or more than once; a handler looks
the id up in the table, and in a later step sends the reply on the channel it found there if there
is room.  A call that has its result takes its id out of the table before it returns.

There are two variants.  When `takes` is set, the handler takes the entry out as it looks it up, and
a call that received a reply leaves the table alone.

Calls and handlers are parties of any number, known by keys.  Ids may be used again; only the
results on replies that are not lost ask that no two calls wait under one id (`Fresh`).
-/

set_option autoImplicit false
set_option linter.unusedSectionVars false

namespace Mailbox

/-- Where a call stands.  One that is leaving still has to take its id out of the table. -/
inductive Stage (ε ρ : Type) where
  | waiting
  | leaving (result : Except ε ρ)
  | done (result : Except ε ρ)

structure Call (κ ε ρ : Type) where
  id : κ
  channel : Channel ρ 1 := {}
  stage : Stage ε ρ := .waiting

/-- The table, the calls ever made, and what the handlers hold between the look-up and the send. -/
structure State (κ γ η ε ρ : Type) where
  waiters : κ → Option γ := fun _ ↦ none
  calls : γ → Option (Call κ ε ρ) := fun _ ↦ none
  handlers : η → Option (γ × ρ) := fun _ ↦ none

/-- `call` opens a call under an id, `lookup` is the arrival of a reply at a handler, `deliver` the
handler's send; `receive`, `giveUp` and `leave` are what the call does then. -/
inductive Action (κ γ η ε ρ : Type) where
  | call (c : γ) (id : κ)
  | lookup (h : η) (r : ρ)
  | deliver (h : η)
  | receive (c : γ)
  | giveUp (c : γ) (error : ε)
  | leave (c : γ)

namespace State

variable {κ γ η ε ρ : Type} [DecidableEq κ] [DecidableEq γ] [DecidableEq η]
  (s : State κ γ η ε ρ)

def setCall (c : γ) (call : Call κ ε ρ) : State κ γ η ε ρ :=
  { s with calls := Function.update s.calls c (some call) }

def call (c : γ) (id : κ) : Option (State κ γ η ε ρ) :=
  match s.calls c with
  | none => some { s.setCall c { id } with waiters := Function.update s.waiters id (some c) }
  | some _ => none

/-- A handler looks the id of a reply up; a reply that nobody waits for is dropped. -/
def lookup (takes : Bool) (key : ρ → κ) (h : η) (r : ρ) : Option (State κ γ η ε ρ) :=
  match s.handlers h, s.waiters (key r) with
  | none, none => some s
  | none, some c =>
    some { s with
      waiters := if takes then Function.update s.waiters (key r) none else s.waiters
      handlers := Function.update s.handlers h (some (c, r)) }
  | some _, _ => none

/-- The handler sends what it holds; the reply is dropped when the channel has one. -/
def deliver (h : η) : Option (State κ γ η ε ρ) :=
  (s.handlers h).bind fun held ↦
    (s.calls held.1).bind fun call ↦
      match call.channel.trySend held.2 with
      | .sent channel =>
        some { s.setCall held.1 { call with channel } with
          handlers := Function.update s.handlers h none }
      | .full => some { s with handlers := Function.update s.handlers h none }
      | .fault => none

def receive (takes : Bool) (c : γ) : Option (State κ γ η ε ρ) :=
  (s.calls c).bind fun call ↦
    match call.stage, call.channel.receive with
    | .waiting, .value r channel =>
      some (s.setCall c
        { call with channel, stage := if takes then .done (.ok r) else .leaving (.ok r) })
    | _, _ => none

def giveUp (c : γ) (error : ε) : Option (State κ γ η ε ρ) :=
  (s.calls c).bind fun call ↦
    match call.stage with
    | .waiting => some (s.setCall c { call with stage := .leaving (.error error) })
    | _ => none

def leave (c : γ) : Option (State κ γ η ε ρ) :=
  (s.calls c).bind fun call ↦
    match call.stage with
    | .leaving result =>
      some { s.setCall c { call with stage := .done result } with
        waiters := Function.update s.waiters call.id none }
    | _ => none

/-- One step of a call or of a handler. -/
def step (takes : Bool) (key : ρ → κ) : Action κ γ η ε ρ → Option (State κ γ η ε ρ)
  | .call c id => s.call c id
  | .lookup h r => s.lookup takes key h r
  | .deliver h => s.deliver h
  | .receive c => s.receive takes c
  | .giveUp c error => s.giveUp c error
  | .leave c => s.leave c

/-- No call that has not returned uses the id. -/
def Fresh : Action κ γ η ε ρ → Prop
  | .call _ id =>
    ∀ c call, s.calls c = some call → call.id = id → ∃ result, call.stage = .done result
  | _ => True

def Initial (s : State κ γ η ε ρ) : Prop := s = {}

/-! ## The results are replies to the call's own id -/

/-- What holds in every run. -/
structure Sound (takes : Bool) (key : ρ → κ) (s : State κ γ η ε ρ) : Prop where
  waiter : ∀ id c, s.waiters id = some c → ∃ call, s.calls c = some call ∧ call.id = id ∧
    (∀ result, call.stage ≠ .done result) ∧
    (takes = true → call.channel.buffer = [] ∧ ∀ h r, s.handlers h ≠ some (c, r))
  held : ∀ h c r, s.handlers h = some (c, r) → ∃ call, s.calls c = some call ∧ call.id = key r
  buffered : ∀ c call, s.calls c = some call → ∀ r ∈ call.channel.buffer, key r = call.id
  result : ∀ c call r, s.calls c = some call →
    call.stage = .leaving (.ok r) ∨ call.stage = .done (.ok r) → key r = call.id
  isOpen : ∀ c call, s.calls c = some call → call.channel.closed = false

variable {takes : Bool} {key : ρ → κ} {s s' : State κ γ η ε ρ}

theorem calls_setCall {c : γ} {call : Call κ ε ρ} (c' : γ) :
    (s.setCall c call).calls c' = if c' = c then some call else s.calls c' :=
  Function.update_apply s.calls c (some call) c'

theorem call_eq_some {c : γ} {id : κ} (h : s.call c id = some s') :
    s.calls c = none ∧
      s' = { s.setCall c { id } with waiters := Function.update s.waiters id (some c) } := by
  rw [call] at h
  split at h
  · rename_i hnone
    exact ⟨hnone, (Option.some.inj h).symm⟩
  · cases h

theorem lookup_eq_some {h : η} {r : ρ} (heq : s.lookup takes key h r = some s') :
    s.handlers h = none ∧ (s' = s ∨ ∃ c, s.waiters (key r) = some c ∧
      s' = { s with
        waiters := if takes then Function.update s.waiters (key r) none else s.waiters
        handlers := Function.update s.handlers h (some (c, r)) }) := by
  rw [lookup] at heq
  split at heq
  · rename_i hnone _
    exact ⟨hnone, .inl (Option.some.inj heq).symm⟩
  · rename_i c hnone hc
    exact ⟨hnone, .inr ⟨c, hc, (Option.some.inj heq).symm⟩⟩
  · cases heq

theorem deliver_eq_some {h : η} (heq : s.deliver h = some s') :
    ∃ c r call, s.handlers h = some (c, r) ∧ s.calls c = some call ∧
      ((∃ channel, call.channel.trySend r = .sent channel ∧
        s' = { s.setCall c { call with channel } with
          handlers := Function.update s.handlers h none }) ∨
      call.channel.trySend r = .full ∧
        s' = { s with handlers := Function.update s.handlers h none }) := by
  obtain ⟨⟨c, r⟩, hheld, heq⟩ := Option.bind_eq_some_iff.mp heq
  obtain ⟨call, hcall, heq⟩ := Option.bind_eq_some_iff.mp heq
  refine ⟨c, r, call, hheld, hcall, ?_⟩
  cases hsend : call.channel.trySend r with
  | sent channel =>
    simp only [hsend, Option.some.injEq] at heq
    exact .inl ⟨channel, rfl, heq.symm⟩
  | full =>
    simp only [hsend, Option.some.injEq] at heq
    exact .inr ⟨rfl, heq.symm⟩
  | fault => simp [hsend] at heq

theorem receive_eq_some {c : γ} (heq : s.receive takes c = some s') :
    ∃ call r channel, s.calls c = some call ∧ call.stage = .waiting ∧
      call.channel.receive = .value r channel ∧
      s' = s.setCall c
        { call with channel, stage := if takes then .done (.ok r) else .leaving (.ok r) } := by
  obtain ⟨call, hcall, heq⟩ := Option.bind_eq_some_iff.mp heq
  split at heq
  · rename_i r channel hwaiting hreceive
    exact ⟨call, r, channel, hcall, hwaiting, hreceive, (Option.some.inj heq).symm⟩
  · cases heq

theorem giveUp_eq_some {c : γ} {error : ε} (heq : s.giveUp c error = some s') :
    ∃ call, s.calls c = some call ∧ call.stage = .waiting ∧
      s' = s.setCall c { call with stage := .leaving (.error error) } := by
  obtain ⟨call, hcall, heq⟩ := Option.bind_eq_some_iff.mp heq
  split at heq
  · rename_i hwaiting
    exact ⟨call, hcall, hwaiting, (Option.some.inj heq).symm⟩
  · cases heq

theorem leave_eq_some {c : γ} (heq : s.leave c = some s') :
    ∃ call result, s.calls c = some call ∧ call.stage = .leaving result ∧
      s' = { s.setCall c { call with stage := .done result } with
        waiters := Function.update s.waiters call.id none } := by
  obtain ⟨call, hcall, heq⟩ := Option.bind_eq_some_iff.mp heq
  split at heq
  · rename_i result hleaving
    exact ⟨call, result, hcall, hleaving, (Option.some.inj heq).symm⟩
  · cases heq

theorem sound_initial : ({} : State κ γ η ε ρ).Sound takes key where
  waiter := by simp
  held := by simp
  buffered := by simp
  result := by simp
  isOpen := by simp

theorem Sound.call (hs : s.Sound takes key) {c : γ} {id : κ} (h : s.call c id = some s') :
    s'.Sound takes key := by
  obtain ⟨hnone, rfl⟩ := call_eq_some h
  have hne {c' : γ} {other : Call κ ε ρ} (hother : s.calls c' = some other) : c' ≠ c := by
    rintro rfl
    rw [hnone] at hother
    cases hother
  refine ⟨fun id' c' hwaiter ↦ ?_, fun h' c' r hheld ↦ ?_, fun c' other hother r hr ↦ ?_,
    fun c' other r hother hresult ↦ ?_, fun c' other hother ↦ ?_⟩
  · have hwaiter : Function.update s.waiters id (some c) id' = some c' := hwaiter
    rw [Function.update_apply] at hwaiter
    split at hwaiter
    · rename_i hid
      obtain rfl := Option.some.inj hwaiter
      refine ⟨{ id }, by rw [calls_setCall, if_pos rfl], hid.symm, by simp,
        fun _ ↦ ⟨rfl, fun h' r hheld ↦ ?_⟩⟩
      obtain ⟨other, hother, -⟩ := hs.held h' c r hheld
      exact hne hother rfl
    · obtain ⟨other, hother, hrest⟩ := hs.waiter id' c' hwaiter
      exact ⟨other, by rw [calls_setCall, if_neg (hne hother), hother], hrest⟩
  · obtain ⟨other, hother, hid⟩ := hs.held h' c' r hheld
    exact ⟨other, by rw [calls_setCall, if_neg (hne hother), hother], hid⟩
  · rw [calls_setCall] at hother
    split at hother
    · obtain rfl := Option.some.inj hother
      cases hr
    · exact hs.buffered c' other hother r hr
  · rw [calls_setCall] at hother
    split at hother
    · obtain rfl := Option.some.inj hother
      simp at hresult
    · exact hs.result c' other r hother hresult
  · rw [calls_setCall] at hother
    split at hother
    · obtain rfl := Option.some.inj hother
      rfl
    · exact hs.isOpen c' other hother

theorem Sound.lookup (hs : s.Sound takes key) {h : η} {r : ρ}
    (heq : s.lookup takes key h r = some s') : s'.Sound takes key := by
  obtain ⟨-, rfl | ⟨c, hc, rfl⟩⟩ := lookup_eq_some heq
  · exact hs
  obtain ⟨call, hcall, hid, hdone, hfree⟩ := hs.waiter (key r) c hc
  refine ⟨fun id' c' hwaiter ↦ ?_, fun h' c' r' hheld ↦ ?_, hs.buffered, hs.result, hs.isOpen⟩
  · cases takes with
    | false =>
      obtain ⟨other, hother, hid', hdone', -⟩ := hs.waiter id' c' hwaiter
      exact ⟨other, hother, hid', hdone', by simp⟩
    | true =>
      have hwaiter : Function.update s.waiters (key r) none id' = some c' := hwaiter
      rw [Function.update_apply] at hwaiter
      split at hwaiter
      · cases hwaiter
      rename_i hne
      obtain ⟨other, hother, hid', hdone', hfree'⟩ := hs.waiter id' c' hwaiter
      refine ⟨other, hother, hid', hdone', fun _ ↦ ⟨(hfree' rfl).1, fun h' r' hheld ↦ ?_⟩⟩
      have hheld : Function.update s.handlers h (some (c, r)) h' = some (c', r') := hheld
      rw [Function.update_apply] at hheld
      split at hheld
      · -- the call just looked up waits under the other id
        obtain ⟨rfl, rfl⟩ := Prod.mk.inj (Option.some.inj hheld)
        rw [hother] at hcall
        exact hne (hid'.symm.trans (by rw [Option.some.inj hcall, hid]))
      · exact (hfree' rfl).2 h' r' hheld
  · have hheld : Function.update s.handlers h (some (c, r)) h' = some (c', r') := hheld
    rw [Function.update_apply] at hheld
    split at hheld
    · obtain ⟨rfl, rfl⟩ := Prod.mk.inj (Option.some.inj hheld)
      exact ⟨call, hcall, hid⟩
    · exact hs.held h' c' r' hheld

/-- What a handler holds after it has let go of a reply it held before. -/
theorem held_of_update {h h' : η} {held : γ × ρ}
    (heq : Function.update s.handlers h none h' = some held) : s.handlers h' = some held := by
  rw [Function.update_apply] at heq
  split at heq
  · cases heq
  · exact heq

theorem Sound.deliver (hs : s.Sound takes key) {h : η} (heq : s.deliver h = some s') :
    s'.Sound takes key := by
  obtain ⟨c, r, call, hheld, hcall, ⟨channel, hsend, rfl⟩ | ⟨-, rfl⟩⟩ := deliver_eq_some heq
  · obtain ⟨-, -, hbuffer, hopen⟩ := Channel.trySend_eq_sent_iff.mp hsend
    have hkey : key r = call.id := by
      obtain ⟨other, hother, hid⟩ := hs.held h c r hheld
      rw [hcall] at hother
      rw [Option.some.inj hother, hid]
    refine ⟨fun id' c' hwaiter ↦ ?_, fun h' c' r' hheld' ↦ ?_, fun c' other hother r' hr' ↦ ?_,
      fun c' other r' hother hresult ↦ ?_, fun c' other hother ↦ ?_⟩
    · obtain ⟨other, hother, hid', hdone', hfree'⟩ := hs.waiter id' c' hwaiter
      rw [calls_setCall]
      split
      · rename_i heq'
        subst heq'
        rw [hcall] at hother
        obtain rfl := Option.some.inj hother
        exact ⟨_, rfl, hid', hdone', fun htakes ↦ absurd hheld ((hfree' htakes).2 h r)⟩
      · exact ⟨other, hother, hid', hdone', fun htakes ↦
          ⟨(hfree' htakes).1, fun h' r' hheld' ↦ (hfree' htakes).2 h' r' (held_of_update hheld')⟩⟩
    · obtain ⟨other, hother, hid⟩ := hs.held h' c' r' (held_of_update hheld')
      rw [calls_setCall]
      split
      · rename_i heq'
        subst heq'
        rw [hcall] at hother
        obtain rfl := Option.some.inj hother
        exact ⟨_, rfl, hid⟩
      · exact ⟨other, hother, hid⟩
    · rw [calls_setCall] at hother
      split at hother
      · obtain rfl := Option.some.inj hother
        rw [hbuffer, List.mem_append, List.mem_singleton] at hr'
        rcases hr' with hr' | rfl
        · exact hs.buffered c call hcall r' hr'
        · exact hkey
      · exact hs.buffered c' other hother r' hr'
    · rw [calls_setCall] at hother
      split at hother
      · obtain rfl := Option.some.inj hother
        exact hs.result c call r' hcall hresult
      · exact hs.result c' other r' hother hresult
    · rw [calls_setCall] at hother
      split at hother
      · obtain rfl := Option.some.inj hother
        exact hopen
      · exact hs.isOpen c' other hother
  · refine ⟨fun id' c' hwaiter ↦ ?_, fun h' c' r' hheld' ↦ hs.held h' c' r' (held_of_update hheld'),
      hs.buffered, hs.result, hs.isOpen⟩
    obtain ⟨other, hother, hid', hdone', hfree'⟩ := hs.waiter id' c' hwaiter
    exact ⟨other, hother, hid', hdone', fun htakes ↦
      ⟨(hfree' htakes).1, fun h' r' hheld' ↦ (hfree' htakes).2 h' r' (held_of_update hheld')⟩⟩

/-- What a call does to its own record: it stays open under its id, holds no more replies than
before, and has no result but a reply to its id. -/
theorem Sound.setCall (hs : s.Sound takes key) {c : γ} {call call' : Call κ ε ρ}
    (hcall : s.calls c = some call) (hid : call'.id = call.id)
    (hbuffer : ∀ r ∈ call'.channel.buffer, r ∈ call.channel.buffer)
    (hopen : call'.channel.closed = call.channel.closed)
    (hresult : ∀ r, call'.stage = .leaving (.ok r) ∨ call'.stage = .done (.ok r) →
      key r = call.id)
    (hdone : ∀ id, s.waiters id = some c → ∀ result, call'.stage ≠ .done result) :
    (s.setCall c call').Sound takes key := by
  refine ⟨fun id' c' hwaiter ↦ ?_, fun h' c' r' hheld' ↦ ?_, fun c' other hother r' hr' ↦ ?_,
    fun c' other r' hother hresult' ↦ ?_, fun c' other hother ↦ ?_⟩
  · obtain ⟨other, hother, hid', hdone', hfree'⟩ := hs.waiter id' c' hwaiter
    rw [calls_setCall]
    split
    · rename_i heq'
      subst heq'
      rw [hcall] at hother
      obtain rfl := Option.some.inj hother
      refine ⟨call', rfl, hid.trans hid', hdone id' hwaiter, fun htakes ↦
        ⟨?_, (hfree' htakes).2⟩⟩
      rw [List.eq_nil_iff_forall_not_mem]
      intro r' hr'
      have := hbuffer r' hr'
      rw [(hfree' htakes).1] at this
      cases this
    · exact ⟨other, hother, hid', hdone', hfree'⟩
  · obtain ⟨other, hother, hid'⟩ := hs.held h' c' r' hheld'
    rw [calls_setCall]
    split
    · rename_i heq'
      subst heq'
      rw [hcall] at hother
      obtain rfl := Option.some.inj hother
      exact ⟨call', rfl, hid.trans hid'⟩
    · exact ⟨other, hother, hid'⟩
  · rw [calls_setCall] at hother
    split at hother
    · obtain rfl := Option.some.inj hother
      rw [hid]
      exact hs.buffered c call hcall r' (hbuffer r' hr')
    · exact hs.buffered c' other hother r' hr'
  · rw [calls_setCall] at hother
    split at hother
    · obtain rfl := Option.some.inj hother
      rw [hid]
      exact hresult r' hresult'
    · exact hs.result c' other r' hother hresult'
  · rw [calls_setCall] at hother
    split at hother
    · obtain rfl := Option.some.inj hother
      rw [hopen]
      exact hs.isOpen c call hcall
    · exact hs.isOpen c' other hother

theorem Sound.receive (hs : s.Sound takes key) {c : γ} (heq : s.receive takes c = some s') :
    s'.Sound takes key := by
  obtain ⟨call, r, channel, hcall, hwaiting, hreceive, rfl⟩ := receive_eq_some heq
  obtain ⟨hbuffer, hclosed⟩ := Channel.receive_eq_value_iff.mp hreceive
  have hmem : r ∈ call.channel.buffer := by
    rw [hbuffer]
    exact List.mem_cons_self
  refine hs.setCall hcall rfl (fun r' hr' ↦ ?_) hclosed (fun r' hresult ↦ ?_)
    fun id hwaiter result ↦ ?_
  · rw [hbuffer]
    exact List.mem_cons_of_mem r hr'
  · have hr : r = r' := by
      cases takes with
      | true => simpa using hresult
      | false => simpa using hresult
    rw [← hr]
    exact hs.buffered c call hcall r hmem
  · -- a handler that takes the entry out took it before it sent the reply
    cases htakes : takes with
    | false => simp
    | true =>
      obtain ⟨other, hother, -, -, hfree⟩ := hs.waiter id c hwaiter
      rw [hcall] at hother
      rw [(Option.some.inj hother), (hfree htakes).1] at hmem
      cases hmem

theorem Sound.giveUp (hs : s.Sound takes key) {c : γ} {error : ε}
    (heq : s.giveUp c error = some s') : s'.Sound takes key := by
  obtain ⟨call, hcall, hwaiting, rfl⟩ := giveUp_eq_some heq
  exact hs.setCall hcall rfl (fun _ ↦ id) rfl (by simp) (by simp)

theorem Sound.leave (hs : s.Sound takes key) {c : γ} (heq : s.leave c = some s') :
    s'.Sound takes key := by
  obtain ⟨call, result, hcall, hleaving, rfl⟩ := leave_eq_some heq
  -- the entry goes first, so that no entry of the table is that of the call
  have hgone : ({ s with waiters := Function.update s.waiters call.id none } :
      State κ γ η ε ρ).Sound takes key := by
    refine ⟨fun id' c' hwaiter ↦ ?_, hs.held, hs.buffered, hs.result, hs.isOpen⟩
    have hwaiter : Function.update s.waiters call.id none id' = some c' := hwaiter
    rw [Function.update_apply] at hwaiter
    split at hwaiter
    · cases hwaiter
    · exact hs.waiter id' c' hwaiter
  refine hgone.setCall hcall rfl (fun _ ↦ id) rfl (fun r hresult ↦ ?_) fun id hwaiter ↦ ?_
  · have hr : result = .ok r := by simpa using hresult
    exact hs.result c call r hcall (.inl (hleaving.trans (by rw [hr])))
  · have hwaiter : Function.update s.waiters call.id none id = some c := hwaiter
    rw [Function.update_apply] at hwaiter
    split at hwaiter
    · cases hwaiter
    · rename_i hne
      obtain ⟨other, hother, hid, -, -⟩ := hs.waiter id c hwaiter
      rw [hcall] at hother
      rw [Option.some.inj hother] at hne
      exact absurd hid.symm hne

theorem Sound.step (hs : s.Sound takes key) {a : Action κ γ η ε ρ}
    (heq : s.step takes key a = some s') : s'.Sound takes key := by
  cases a with
  | call c id => exact hs.call heq
  | lookup h r => exact hs.lookup heq
  | deliver h => exact hs.deliver heq
  | receive c => exact hs.receive heq
  | giveUp c error => exact hs.giveUp heq
  | leave c => exact hs.leave heq

/-- The states of all runs. -/
def Reachable (takes : Bool) (key : ρ → κ) (s : State κ γ η ε ρ) : Prop :=
  GuardedRun.Reachable (fun s ↦ s.step takes key) (fun _ _ ↦ True) Initial s

theorem Reachable.sound (h : s.Reachable takes key) : s.Sound takes key :=
  GuardedRun.Reachable.invariant (by rintro _ rfl; exact sound_initial)
    (fun _ _ _ _ hs _ hstep ↦ hs.step hstep) h

/-- **A call never returns the reply to another call.** -/
theorem key_of_done (h : s.Reachable takes key) {c : γ} {call : Call κ ε ρ} {r : ρ}
    (hcall : s.calls c = some call) (hdone : call.stage = .done (.ok r)) : key r = call.id :=
  h.sound.result c call r hcall (.inr hdone)

/-- **The table holds calls that have not returned, and nothing else.** -/
theorem not_done_of_waiter (h : s.Reachable takes key) {c : γ} {id : κ}
    (hwaiter : s.waiters id = some c) :
    ∃ call, s.calls c = some call ∧ call.id = id ∧ ∀ result, call.stage ≠ .done result := by
  obtain ⟨call, hcall, hid, hdone, -⟩ := h.sound.waiter id c hwaiter
  exact ⟨call, hcall, hid, hdone⟩

theorem id_of_setCall {c c' : γ} {call call' other : Call κ ε ρ} (hcall : s.calls c = some call)
    (hid : call'.id = call.id) (hother : (s.setCall c call').calls c' = some other) :
    ∃ old, s.calls c' = some old ∧ old.id = other.id := by
  rw [calls_setCall] at hother
  split at hother
  · rename_i heq
    subst heq
    obtain rfl := Option.some.inj hother
    exact ⟨call, hcall, hid.symm⟩
  · exact ⟨other, hother, rfl⟩

/-- A call has the id it was opened under. -/
theorem id_of_step {a : Action κ γ η ε ρ} (heq : s.step takes key a = some s') {c : γ}
    {call : Call κ ε ρ} (hcall : s'.calls c = some call) :
    (∃ old, s.calls c = some old ∧ old.id = call.id) ∨ a = .call c call.id := by
  cases a with
  | call c' id =>
    obtain ⟨-, rfl⟩ := call_eq_some heq
    rw [calls_setCall] at hcall
    split at hcall
    · rename_i hc
      obtain rfl := Option.some.inj hcall
      exact .inr (by rw [hc])
    · exact .inl ⟨call, hcall, rfl⟩
  | lookup h r =>
    obtain ⟨-, rfl | ⟨c', -, rfl⟩⟩ := lookup_eq_some heq
    · exact .inl ⟨call, hcall, rfl⟩
    · exact .inl ⟨call, hcall, rfl⟩
  | deliver h =>
    obtain ⟨c', r, old, -, hold, ⟨channel, -, rfl⟩ | ⟨-, rfl⟩⟩ := deliver_eq_some heq
    · exact .inl (id_of_setCall hold (by rfl) hcall)
    · exact .inl ⟨call, hcall, rfl⟩
  | receive c' =>
    obtain ⟨old, r, channel, hold, -, -, rfl⟩ := receive_eq_some heq
    exact .inl (id_of_setCall hold (by rfl) hcall)
  | giveUp c' error =>
    obtain ⟨old, hold, -, rfl⟩ := giveUp_eq_some heq
    exact .inl (id_of_setCall hold (by rfl) hcall)
  | leave c' =>
    obtain ⟨old, result, hold, -, rfl⟩ := leave_eq_some heq
    exact .inl (id_of_setCall hold (by rfl) hcall)

/-! ## Replies are not lost -/

/-- The reply to a call has been looked up for it, or its entry is in the table. -/
def Awaited (takes : Bool) (s : State κ γ η ε ρ) (c : γ) (call : Call κ ε ρ) : Prop :=
  s.waiters call.id = some c ∨
    takes = true ∧ (call.channel.buffer ≠ [] ∨ ∃ h r, s.handlers h = some (c, r))

/-- What holds in the runs whose calls use fresh ids. -/
structure Present (takes : Bool) (s : State κ γ η ε ρ) : Prop where
  awaited : ∀ c call, s.calls c = some call → call.stage = .waiting → s.Awaited takes c call
  unique : ∀ c c' call call', s.calls c = some call → s.calls c' = some call' →
    (∀ result, call.stage ≠ .done result) → (∀ result, call'.stage ≠ .done result) →
    call.id = call'.id → c = c'

theorem Present.call (hp : s.Present takes) {c : γ} {id : κ}
    (hfresh : s.Fresh (.call c id : Action κ γ η ε ρ)) (heq : s.call c id = some s') :
    s'.Present takes := by
  obtain ⟨hnone, rfl⟩ := call_eq_some heq
  refine ⟨fun c' other hother hwaiting ↦ ?_,
    fun c₁ c₂ call₁ call₂ hcall₁ hcall₂ hdone₁ hdone₂ hid ↦ ?_⟩
  · rw [calls_setCall] at hother
    split at hother
    · rename_i heq'
      obtain rfl := Option.some.inj hother
      exact .inl (by rw [heq']; exact Function.update_self ..)
    · have hne : other.id ≠ id := by
        intro hid
        obtain ⟨result, hresult⟩ := hfresh c' other hother hid
        rw [hwaiting] at hresult
        cases hresult
      rcases hp.awaited c' other hother hwaiting with hold | hold
      · exact .inl ((Function.update_of_ne hne ..).trans hold)
      · exact .inr hold
  · rw [calls_setCall] at hcall₁ hcall₂
    split at hcall₁ <;> split at hcall₂
    · rename_i h₁ h₂
      rw [h₁, h₂]
    · obtain rfl := Option.some.inj hcall₁
      obtain ⟨result, hresult⟩ := hfresh c₂ call₂ hcall₂ hid.symm
      exact absurd hresult (hdone₂ result)
    · obtain rfl := Option.some.inj hcall₂
      obtain ⟨result, hresult⟩ := hfresh c₁ call₁ hcall₁ hid
      exact absurd hresult (hdone₁ result)
    · exact hp.unique c₁ c₂ call₁ call₂ hcall₁ hcall₂ hdone₁ hdone₂ hid

theorem Present.lookup (hp : s.Present takes) {h : η} {r : ρ}
    (heq : s.lookup takes key h r = some s') : s'.Present takes := by
  obtain ⟨hnone, rfl | ⟨c, hc, rfl⟩⟩ := lookup_eq_some heq
  · exact hp
  refine ⟨fun c' other hother hwaiting ↦ ?_, hp.unique⟩
  cases takes with
  | false => exact (hp.awaited c' other hother hwaiting).imp_right fun hold ↦ by simp at hold
  | true =>
    rcases hp.awaited c' other hother hwaiting with hold | ⟨-, hbuffer | ⟨h', r', hheld⟩⟩
    · by_cases hid : other.id = key r
      · rw [hid, hc] at hold
        obtain rfl := Option.some.inj hold
        exact .inr ⟨rfl, .inr ⟨h, r, Function.update_self ..⟩⟩
      · exact .inl ((Function.update_of_ne hid ..).trans hold)
    · exact .inr ⟨rfl, .inl hbuffer⟩
    · have hne : h' ≠ h := by
        rintro rfl
        rw [hnone] at hheld
        cases hheld
      exact .inr ⟨rfl, .inr ⟨h', r', (Function.update_of_ne hne ..).trans hheld⟩⟩

theorem Present.deliver (hp : s.Present takes) {h : η} (heq : s.deliver h = some s') :
    s'.Present takes := by
  obtain ⟨c, r, call, hheld, hcall, hcases⟩ := deliver_eq_some heq
  -- another call's reply is held by another handler
  have hother {c' : γ} (hne : c' ≠ c) {other : Call κ ε ρ} (hold : s.Awaited takes c' other) :
      s.waiters other.id = some c' ∨ takes = true ∧ (other.channel.buffer ≠ [] ∨
        ∃ h' r', Function.update s.handlers h none h' = some (c', r')) := by
    refine hold.imp_right fun ⟨htakes, hold⟩ ↦ ⟨htakes, hold.imp_right fun ⟨h', r', hheld'⟩ ↦ ?_⟩
    have hne' : h' ≠ h := by
      rintro rfl
      rw [hheld] at hheld'
      exact hne (Prod.mk.inj (Option.some.inj hheld')).1.symm
    exact ⟨h', r', (Function.update_of_ne hne' ..).trans hheld'⟩
  rcases hcases with ⟨channel, hsend, rfl⟩ | ⟨hfull, rfl⟩
  · obtain ⟨-, -, hbuffer, -⟩ := Channel.trySend_eq_sent_iff.mp hsend
    refine ⟨fun c' other hcall' hwaiting ↦ ?_,
      fun c₁ c₂ call₁ call₂ hcall₁ hcall₂ hdone₁ hdone₂ hid ↦ ?_⟩
    · rw [calls_setCall] at hcall'
      split at hcall'
      · rename_i heq'
        subst heq'
        obtain rfl := Option.some.inj hcall'
        refine (hp.awaited c' call hcall hwaiting).imp_right fun hold ↦ ⟨hold.1, .inl ?_⟩
        show channel.buffer ≠ []
        rw [hbuffer]
        simp
      · rename_i hne
        exact hother hne (hp.awaited c' other hcall' hwaiting)
    · -- the record has the same id and stage as before
      have hback {c' : γ} {other : Call κ ε ρ}
          (hcall' : (s.setCall c { call with channel }).calls c' = some other) :
          ∃ old, s.calls c' = some old ∧ old.id = other.id ∧ old.stage = other.stage := by
        rw [calls_setCall] at hcall'
        split at hcall'
        · rename_i heq'
          subst heq'
          obtain rfl := Option.some.inj hcall'
          exact ⟨call, hcall, rfl, rfl⟩
        · exact ⟨other, hcall', rfl, rfl⟩
      obtain ⟨old₁, hold₁, hid₁, hstage₁⟩ := hback hcall₁
      obtain ⟨old₂, hold₂, hid₂, hstage₂⟩ := hback hcall₂
      refine hp.unique c₁ c₂ old₁ old₂ hold₁ hold₂ ?_ ?_ ?_
      · rwa [hstage₁]
      · rwa [hstage₂]
      · rw [hid₁, hid₂, hid]
  · refine ⟨fun c' other hcall' hwaiting ↦ ?_, hp.unique⟩
    by_cases heq' : c' = c
    · subst heq'
      rw [hcall] at hcall'
      obtain rfl := Option.some.inj hcall'
      refine (hp.awaited c' call hcall hwaiting).imp_right fun hold ↦ ⟨hold.1, .inl ?_⟩
      rw [← List.length_pos_iff, (Channel.trySend_eq_full_iff.mp hfull).2]
      exact Nat.one_pos
    · exact hother heq' (hp.awaited c' other hcall' hwaiting)

/-- A call that stops waiting. -/
theorem Present.setCall (hp : s.Present takes) {c : γ} {call call' : Call κ ε ρ}
    (hcall : s.calls c = some call) (hid : call'.id = call.id) (hstage : call'.stage ≠ .waiting)
    (hdone : ∀ result, call.stage ≠ .done result) : (s.setCall c call').Present takes := by
  refine ⟨fun c' other hother hwaiting ↦ ?_,
    fun c₁ c₂ call₁ call₂ hcall₁ hcall₂ hdone₁ hdone₂ hid' ↦ ?_⟩
  · rw [calls_setCall] at hother
    split at hother
    · obtain rfl := Option.some.inj hother
      exact absurd hwaiting hstage
    · exact hp.awaited c' other hother hwaiting
  · have hback {c' : γ} {other : Call κ ε ρ} (hcall' : (s.setCall c call').calls c' = some other)
        (hother : ∀ result, other.stage ≠ .done result) :
        ∃ old, s.calls c' = some old ∧ old.id = other.id ∧ ∀ result, old.stage ≠ .done result := by
      rw [calls_setCall] at hcall'
      split at hcall'
      · rename_i heq'
        subst heq'
        obtain rfl := Option.some.inj hcall'
        exact ⟨call, hcall, hid.symm, hdone⟩
      · exact ⟨other, hcall', rfl, hother⟩
    obtain ⟨old₁, hold₁, hid₁, hdone₁'⟩ := hback hcall₁ hdone₁
    obtain ⟨old₂, hold₂, hid₂, hdone₂'⟩ := hback hcall₂ hdone₂
    exact hp.unique c₁ c₂ old₁ old₂ hold₁ hold₂ hdone₁' hdone₂' (by rw [hid₁, hid₂, hid'])

theorem Present.leave (hp : s.Present takes) {c : γ} (heq : s.leave c = some s') :
    s'.Present takes := by
  obtain ⟨call, result, hcall, hleaving, rfl⟩ := leave_eq_some heq
  have hset : (s.setCall c { call with stage := .done result }).Present takes :=
    hp.setCall hcall rfl (by simp) (by simp [hleaving])
  refine ⟨fun c' other hother hwaiting ↦ ?_, hset.unique⟩
  have hne : other.id ≠ call.id := by
    intro hid
    rw [calls_setCall] at hother
    split at hother
    · obtain rfl := Option.some.inj hother
      cases hwaiting
    · rename_i hne
      exact hne (hp.unique c' c other call hother hcall (by simp [hwaiting]) (by simp [hleaving])
        hid)
  exact (hset.awaited c' other hother hwaiting).imp_left (Function.update_of_ne hne ..).trans

theorem Present.step (hp : s.Present takes) {a : Action κ γ η ε ρ} (hfresh : s.Fresh a)
    (heq : s.step takes key a = some s') : s'.Present takes := by
  cases a with
  | call c id => exact hp.call hfresh heq
  | lookup h r => exact hp.lookup heq
  | deliver h => exact hp.deliver heq
  | receive c =>
    obtain ⟨call, r, channel, hcall, hwaiting, -, rfl⟩ := receive_eq_some heq
    refine hp.setCall hcall rfl ?_ (by simp [hwaiting])
    cases takes <;> simp
  | giveUp c error =>
    obtain ⟨call, hcall, hwaiting, rfl⟩ := giveUp_eq_some heq
    exact hp.setCall hcall rfl (by simp) (by simp [hwaiting])
  | leave c => exact hp.leave heq

/-- The states of the runs whose calls use fresh ids. -/
def FreshReachable (takes : Bool) (key : ρ → κ) (s : State κ γ η ε ρ) : Prop :=
  GuardedRun.Reachable (fun s ↦ s.step takes key) Fresh Initial s

theorem FreshReachable.reachable (h : s.FreshReachable takes key) : s.Reachable takes key :=
  GuardedRun.Reachable.mono (fun _ _ _ ↦ trivial) h

theorem FreshReachable.present (h : s.FreshReachable takes key) : s.Present takes :=
  GuardedRun.Reachable.invariant (by rintro _ rfl; exact ⟨by simp, by simp⟩)
    (fun _ _ _ _ hp hfresh hstep ↦ hp.step hfresh hstep) h

/-- **A reply that arrives while its call waits is not lost.**  The handler that looks it up is sent
to that call, unless another reply to it has been looked up before. -/
theorem lookup_of_waiting (h : s.FreshReachable takes key) {c : γ} {call : Call κ ε ρ}
    (hcall : s.calls c = some call) (hwaiting : call.stage = .waiting) {r : ρ}
    (hkey : key r = call.id) {hd : η} (hfree : s.handlers hd = none) :
    (∃ s', s.step takes key (.lookup hd r) = some s' ∧ s'.handlers hd = some (c, r)) ∨
      takes = true ∧ (call.channel.buffer ≠ [] ∨ ∃ h' r', s.handlers h' = some (c, r')) := by
  refine (h.present.awaited c call hcall hwaiting).imp_left fun hwaiter ↦ ?_
  rw [← hkey] at hwaiter
  refine ⟨{ s with
    waiters := if takes then Function.update s.waiters (key r) none else s.waiters
    handlers := Function.update s.handlers hd (some (c, r)) }, ?_,
    Function.update_self hd (some (c, r)) s.handlers⟩
  simp only [step, lookup, hfree, hwaiter]

end State
end Mailbox
