import Mathlib.Data.List.Infix

/-!
# Bounded channels

A channel holds the values that were sent and not yet received, the oldest first, and at most
`capacity` of them.  It can be closed, once: what it holds then can still be received.  Sending on a
closed channel and closing it again are faults, which are results of their own here, so that a
program over channels has to say what it does about them.

A send that does not wait (`trySend`) and a receive (`receive`) are all that is needed: a send that
waits is one that happens in a state with room, and a receive that waits happens once there is
something to receive.
-/

set_option autoImplicit false

/-- A channel with room for `capacity` values. -/
structure Channel (α : Type) (capacity : ℕ) where
  buffer : List α := []
  closed : Bool := false
  length_le : buffer.length ≤ capacity := by exact Nat.zero_le _

namespace Channel

variable {α : Type} {capacity : ℕ}

/-- What a send that does not wait comes to. -/
inductive Sent (α : Type) (capacity : ℕ) where
  | sent (c : Channel α capacity)
  | full
  | fault

/-- What a receive comes to. -/
inductive Received (α : Type) (capacity : ℕ) where
  | value (a : α) (c : Channel α capacity)
  | closed
  | blocked

/-- Send a value if there is room for it. -/
def trySend (c : Channel α capacity) (a : α) : Sent α capacity :=
  if c.closed then .fault
  else if h : c.buffer.length < capacity then
    .sent { c with
      buffer := c.buffer ++ [a]
      length_le := by rw [List.length_append, List.length_singleton]; omega }
  else .full

/-- Close a channel; nothing when it is closed already. -/
def close (c : Channel α capacity) : Option (Channel α capacity) :=
  if c.closed then none else some { c with closed := true }

/-- Receive the oldest value. -/
def receive (c : Channel α capacity) : Received α capacity :=
  match h : c.buffer with
  | a :: rest =>
    .value a { c with
      buffer := rest
      length_le := by
        have := c.length_le
        rw [h, List.length_cons] at this
        omega }
  | [] => if c.closed then .closed else .blocked

/-! ## What the operations do to the values held -/

variable {c c' : Channel α capacity} {a : α}

@[ext] theorem ext' (hbuffer : c.buffer = c'.buffer) (hclosed : c.closed = c'.closed) : c = c' := by
  cases c
  cases c'
  cases hbuffer
  cases hclosed
  rfl

theorem trySend_eq_sent_iff :
    c.trySend a = .sent c' ↔
      c.closed = false ∧ c.buffer.length < capacity ∧ c'.buffer = c.buffer ++ [a] ∧
        c'.closed = false := by
  rw [trySend]
  cases hclosed : c.closed with
  | true => simp
  | false =>
    by_cases hroom : c.buffer.length < capacity
    · rw [if_neg Bool.false_ne_true, dif_pos hroom, Sent.sent.injEq]
      constructor
      · rintro rfl
        exact ⟨rfl, hroom, rfl, rfl⟩
      · rintro ⟨-, -, hbuffer, hc'⟩
        exact ext' hbuffer.symm hc'.symm
    · simp [hroom]

theorem trySend_eq_full_iff :
    c.trySend a = .full ↔ c.closed = false ∧ c.buffer.length = capacity := by
  have hle := c.length_le
  rw [trySend]
  cases c.closed with
  | true => simp
  | false =>
    by_cases hroom : c.buffer.length < capacity
    · have hne : c.buffer.length ≠ capacity := by omega
      simp [hroom, hne]
    · have heq : c.buffer.length = capacity := by omega
      simp [heq]

theorem trySend_eq_fault_iff : c.trySend a = .fault ↔ c.closed = true := by
  rw [trySend]
  cases c.closed with
  | true => simp
  | false => by_cases hroom : c.buffer.length < capacity <;> simp [hroom]

theorem close_eq_some_iff :
    c.close = some c' ↔ c.closed = false ∧ c'.buffer = c.buffer ∧ c'.closed = true := by
  rw [close]
  cases hclosed : c.closed with
  | true => simp
  | false =>
    simp only [Bool.false_eq_true, if_false, Option.some.injEq, true_and]
    constructor
    · rintro rfl
      exact ⟨rfl, rfl⟩
    · rintro ⟨hbuffer, hc'⟩
      exact ext' hbuffer.symm hc'.symm

theorem close_eq_none_iff : c.close = none ↔ c.closed = true := by
  rw [close]
  cases c.closed <;> simp

theorem receive_eq_value_iff :
    c.receive = .value a c' ↔ c.buffer = a :: c'.buffer ∧ c'.closed = c.closed := by
  rw [receive]
  split
  · rename_i b rest hbuffer
    simp only [Received.value.injEq, hbuffer, List.cons.injEq]
    constructor
    · rintro ⟨rfl, rfl⟩
      exact ⟨⟨rfl, rfl⟩, rfl⟩
    · rintro ⟨⟨rfl, hrest⟩, hc'⟩
      exact ⟨rfl, ext' hrest hc'.symm⟩
  · rename_i hbuffer
    cases c.closed <;> simp [hbuffer]

theorem receive_eq_closed_iff : c.receive = .closed ↔ c.buffer = [] ∧ c.closed = true := by
  rw [receive]
  split
  · rename_i b rest hbuffer
    simp [hbuffer]
  · rename_i hbuffer
    cases c.closed <;> simp [hbuffer]

end Channel
