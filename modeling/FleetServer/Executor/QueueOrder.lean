import FleetServer.Executor.CancelSent

/-!
# The order of a queue

`StartTask` appends a task to the queue of its agent.  Everything else only takes tasks out, from
anywhere in the queue, and a task that is out does not come back; what is sent is the task at the
head, and it stays there until it is taken out.  So a queue is at any time a sublist of the tasks in
the order in which they were queued, and the tasks of an agent are sent in that order
(`sends_in_order`).
-/

set_option autoImplicit false

namespace FleetServer
namespace Executor

open GuardedRun SchedulerState State State.Manager

/-- The scheduler with the tasks that `StartTask` has queued for each agent, the first one first. -/
structure OrderRun where
  sched : SchedulerState
  queued : String → List String := fun _ ↦ []

def queuedBy (queued : String → List String) : Action → String → List String
  | .startTask r => Function.update queued r.agentID (queued r.agentID ++ [r.taskID])
  | _ => queued

namespace OrderRun

def step (r : OrderRun) (act : Action) : Option OrderRun :=
  (Executor.step r.sched act).map fun s ↦ { sched := s, queued := queuedBy r.queued act }

def Initial (r : OrderRun) : Prop := Executor.Initial r.sched ∧ r.queued = fun _ ↦ []

/-- The one task was queued for the agent before the other. -/
def Before (r : OrderRun) (agentID t u : String) : Prop := [t, u].Sublist (r.queued agentID)

end OrderRun

variable {s s' : SchedulerState} {act : Action} {r r' : OrderRun} {a t u : String}

/-! ## Lists without repetitions -/

theorem not_sublist_swap {l : List String} (h : l.Nodup) (htu : [t, u].Sublist l) :
    ¬[u, t].Sublist l := by
  induction l with
  | nil => exact absurd htu.length_le (by simp)
  | cons x l ih =>
    obtain ⟨hx, hl⟩ := List.nodup_cons.mp h
    intro hut
    cases htu with
    | cons _ htu =>
      cases hut with
      | cons _ hut => exact ih hl htu hut
      | cons_cons _ hut => exact hx (htu.subset (by simp))
    | cons_cons _ htu =>
      cases hut with
      | cons _ hut => exact hx (hut.subset (by simp))
      | cons_cons _ hut => exact hx (List.singleton_sublist.mp htu)

/-- What stood before the head of a queue is no longer in the queue. -/
theorem not_mem_of_before {queued rest : List String} (h : queued.Nodup)
    (hsub : (u :: rest).Sublist queued) (hbefore : [t, u].Sublist queued) : t ∉ u :: rest := by
  intro hmem
  rcases List.mem_cons.mp hmem with rfl | hrest
  · exact absurd (h.sublist hbefore) (by simp)
  · have hswap : [u, t].Sublist (u :: rest) := (List.singleton_sublist.mpr hrest).cons_cons u
    exact not_sublist_swap h hbefore (hswap.trans hsub)

/-! ## The invariant -/

structure OrderInv (r : OrderRun) : Prop where
  shape : QueueShape r.sched
  exists_queued : ∀ a t, t ∈ r.queued a → r.sched.task t ≠ none
  nodup : ∀ a, (r.queued a).Nodup
  sublist : ∀ a, (r.sched.taskQueues a).Sublist (r.queued a)
  exists_sent : ∀ a t, .startTask a t ∈ r.sched.outbox → r.sched.task t ≠ none
  /-- When a task has been sent, those before it are out of the queue. -/
  gone : ∀ a t u, r.Before a t u → .startTask a u ∈ r.sched.outbox → t ∉ r.sched.taskQueues a
  ordered : ∀ a t u, r.Before a t u → ∀ newer older,
    r.sched.outbox = newer ++ .startTask a u :: older → .startTask a t ∉ newer

theorem orderInv_init (h : r.Initial) : OrderInv r := by
  obtain ⟨hsched, hqueued⟩ := h
  have hshape := queueShape_init hsched
  obtain ⟨manager, hsched⟩ := hsched
  refine ⟨hshape, ?_, ?_, ?_, ?_, ?_, ?_⟩ <;> simp [hsched, hqueued]

/-! ## Steps -/

/-- A task is queued after all others, or nothing is queued. -/
theorem queued_of_move (hm : Move s act s') (queued : String → List String) :
    (queuedBy queued act = queued ∧ ∀ b, (s'.taskQueues b).Sublist (s.taskQueues b)) ∨
    ∃ q : StartRequest, act = .startTask q ∧ s.task q.taskID = none ∧ s'.taskQueues =
      Function.update s.taskQueues q.agentID (s.taskQueues q.agentID ++ [q.taskID]) := by
  by_cases hact : ∃ q, act = .startTask q
  · obtain ⟨q, rfl⟩ := hact
    cases hm with
    | startTask _ hnew => exact Or.inr ⟨q, rfl, hnew, rfl⟩
  · refine Or.inl ⟨?_, ?_⟩
    · cases act with
      | startTask q => exact absurd ⟨q, rfl⟩ hact
      | _ => rfl
    · rcases queues_of_move hm with hsub | ⟨q, heq, -⟩
      · exact hsub
      · exact absurd ⟨q, heq⟩ hact

/-- Only the task at the head of a queue is sent. -/
theorem sent_of_move (hshape : QueueShape s) (hm : Move s act s') :
    s'.outbox = s.outbox ∨ ∃ m, s'.outbox = m :: s.outbox ∧
      ∀ a u, m = .startTask a u → ∃ rest, s.taskQueues a = u :: rest := by
  rcases outbox_of_move hm with heq | ⟨f, k, task, hu, -, heq⟩ | ⟨b, k, heq⟩
  · exact Or.inl heq
  · refine Or.inr ⟨_, heq, fun a u hm ↦ ?_⟩
    obtain ⟨rfl, rfl⟩ : task.agentID = a ∧ k = u := by simpa using hm
    obtain ⟨-, -, htask, rest, hqueue⟩ := underDispatch_eq_some hu
    obtain ⟨x, hx, hagent⟩ := hshape.owner f.agentID k (hqueue ▸ List.mem_cons_self)
    obtain rfl : task = x := Option.some.inj (htask.symm.trans hx)
    exact ⟨rest, hagent ▸ hqueue⟩
  · exact Or.inr ⟨_, heq, fun a u hm ↦ absurd hm (by simp)⟩

theorem before_append {l : List String} {x : String} (h : [t, u].Sublist (l ++ [x])) :
    [t, u].Sublist l ∨ u = x := by
  obtain ⟨l₁, l₂, heq, h₁, h₂⟩ := List.sublist_append_iff.mp h
  rcases List.sublist_singleton.mp h₂ with rfl | rfl
  · rw [heq, List.append_nil]
    exact Or.inl h₁
  · have hlast := congrArg List.getLast? heq
    exact Or.inr (by simpa using hlast)

/-- The order of the tasks that exist is settled. -/
theorem before_of_step (hm : Move r.sched act s')
    (hbefore : [t, u].Sublist (queuedBy r.queued act a)) (hu : r.sched.task u ≠ none) :
    r.Before a t u := by
  rcases queued_of_move hm r.queued with ⟨heq, -⟩ | ⟨q, rfl, hnew, -⟩
  · rwa [heq] at hbefore
  · rw [queuedBy] at hbefore
    by_cases ha : a = q.agentID
    · subst ha
      rw [Function.update_self] at hbefore
      rcases before_append hbefore with hold | rfl
      · exact hold
      · exact absurd hnew hu
    · rwa [Function.update_of_ne ha] at hbefore

/-- What is queued is new, and the queue keeps to the order. -/
theorem OrderInv.queued_step (h : OrderInv r) (hs : Executor.step r.sched act = some s')
    (a : String) :
    (∀ t ∈ queuedBy r.queued act a, s'.task t ≠ none) ∧ (queuedBy r.queued act a).Nodup ∧
      (s'.taskQueues a).Sublist (queuedBy r.queued act a) := by
  rcases queued_of_move (move_of_step hs) r.queued with ⟨heq, hsub⟩ | ⟨q, rfl, hnew, hqueues⟩
  · rw [heq]
    exact ⟨fun t ht ↦ exists_of_step (h.exists_queued a t ht) hs, h.nodup a,
      (hsub a).trans (h.sublist a)⟩
  · have hm := move_of_step hs
    rw [queuedBy, hqueues]
    by_cases ha : a = q.agentID
    · subst ha
      rw [Function.update_self, Function.update_self]
      refine ⟨fun t ht ↦ ?_, ?_, (h.sublist _).append (List.Sublist.refl _)⟩
      · rcases List.mem_append.mp ht with hold | hlast
        · exact exists_of_step (h.exists_queued _ t hold) hs
        · obtain rfl := List.mem_singleton.mp hlast
          cases hm with
          | startTask => simp [SchedulerState.create]
      · refine List.nodup_append.mpr ⟨h.nodup _, by simp, fun k hk k' hk' heq ↦ ?_⟩
        obtain rfl := List.mem_singleton.mp hk'
        exact h.exists_queued _ k hk (heq ▸ hnew)
    · rw [Function.update_of_ne ha, Function.update_of_ne ha]
      exact ⟨fun t ht ↦ exists_of_step (h.exists_queued a t ht) hs, h.nodup a, h.sublist a⟩

/-- **A task is sent only when those before it are out of the queue.** -/
theorem OrderInv.not_mem_of_sent (h : OrderInv r) {rest : List String}
    (hhead : r.sched.taskQueues a = u :: rest) (hbefore : r.Before a t u) :
    t ∉ r.sched.taskQueues a := by
  rw [hhead]
  exact not_mem_of_before (h.nodup a) (hhead ▸ h.sublist a) hbefore

theorem orderInv_step (h : OrderInv r) (hs : r.step act = some r') : OrderInv r' := by
  obtain ⟨s', hs', rfl⟩ := Option.map_eq_some_iff.mp hs
  have hm := move_of_step hs'
  have hqueued := h.queued_step hs'
  -- a task that was queued does not come back
  have hout : ∀ a t u, r.Before a t u → t ∉ r.sched.taskQueues a → t ∉ s'.taskQueues a :=
    fun a t u hbefore hnot hmem ↦
      hnot (mem_queue_of_move hm (h.exists_queued a t (hbefore.subset (by simp))) hmem)
  have hshape := queueShape_step h.shape hs'
  have hexists := fun a ↦ (hqueued a).1
  rcases sent_of_move h.shape hm with houtbox | ⟨m, houtbox, hhead⟩
  · refine ⟨hshape, hexists, fun a ↦ (hqueued a).2.1, fun a ↦ (hqueued a).2.2, fun a t hsent ↦ ?_,
      fun a t u hbefore hsent ↦ ?_, fun a t u hbefore newer older heq ↦ ?_⟩
    · exact exists_of_step (h.exists_sent a t (houtbox ▸ hsent)) hs'
    · have hsent : .startTask a u ∈ r.sched.outbox := houtbox ▸ hsent
      have hold := before_of_step hm hbefore (h.exists_sent a u hsent)
      exact hout a t u hold (h.gone a t u hold hsent)
    · have heq : r.sched.outbox = newer ++ .startTask a u :: older := houtbox ▸ heq
      have hsent : .startTask a u ∈ r.sched.outbox := by
        rw [heq]
        exact List.mem_append_right _ List.mem_cons_self
      exact h.ordered a t u (before_of_step hm hbefore (h.exists_sent a u hsent)) newer older heq
  · -- a task at the head of its queue exists
    have hsome : ∀ a u, m = .startTask a u → r.sched.task u ≠ none := by
      intro a u hmsg
      obtain ⟨rest, hqueue⟩ := hhead a u hmsg
      exact h.exists_queued a u ((h.sublist a).subset (hqueue ▸ List.mem_cons_self))
    refine ⟨hshape, hexists, fun a ↦ (hqueued a).2.1, fun a ↦ (hqueued a).2.2, fun a t hsent ↦ ?_,
      fun a t u hbefore hsent ↦ ?_, fun a t u hbefore newer older heq ↦ ?_⟩
    · dsimp only at hsent
      rw [houtbox] at hsent
      rcases List.mem_cons.mp hsent with hmsg | hsent
      · exact exists_of_step (hsome a t hmsg.symm) hs'
      · exact exists_of_step (h.exists_sent a t hsent) hs'
    · dsimp only at hsent
      rw [houtbox] at hsent
      rcases List.mem_cons.mp hsent with hmsg | hsent
      · have hold := before_of_step hm hbefore (hsome a u hmsg.symm)
        obtain ⟨rest, hqueue⟩ := hhead a u hmsg.symm
        exact hout a t u hold (h.not_mem_of_sent hqueue hold)
      · have hold := before_of_step hm hbefore (h.exists_sent a u hsent)
        exact hout a t u hold (h.gone a t u hold hsent)
    · dsimp only at heq
      rw [houtbox] at heq
      cases newer with
      | nil => exact List.not_mem_nil
      | cons m' newer =>
        obtain ⟨rfl, hrest⟩ := List.cons.inj heq
        have hsent : .startTask a u ∈ r.sched.outbox := by
          rw [hrest]
          exact List.mem_append_right _ List.mem_cons_self
        have hold := before_of_step hm hbefore (h.exists_sent a u hsent)
        intro hmem
        rcases List.mem_cons.mp hmem with hmsg | hmem
        · -- the task sent now is in the queue, and those before a task sent are not
          obtain ⟨rest, hqueue⟩ := hhead a t hmsg.symm
          exact h.gone a t u hold hsent (hqueue ▸ List.mem_cons_self)
        · exact h.ordered a t u hold newer older hrest hmem

/-! ## Runs -/

/-- **The tasks of an agent are sent in the order in which `StartTask` queued them**: once a task
has been sent, none that was queued before it is sent any more, and it is never sent while one of
them is still queued. -/
theorem sends_in_order {agentID : String}
    (hr : Reachable OrderRun.step (fun _ _ ↦ True) OrderRun.Initial r)
    (hbefore : r.Before agentID t u) :
    (∀ newer older, r.sched.outbox = newer ++ .startTask agentID u :: older →
      .startTask agentID t ∉ newer) ∧
    ∀ act r', r.step act = some r' →
      r'.sched.outbox = .startTask agentID u :: r.sched.outbox →
        t ∉ r.sched.taskQueues agentID := by
  have h : OrderInv r := hr.invariant (fun _ ↦ orderInv_init) fun _ _ _ _ hi _ hs ↦
    orderInv_step hi hs
  refine ⟨h.ordered agentID t u hbefore, fun act r' hs hsent ↦ ?_⟩
  obtain ⟨s', hs', rfl⟩ := Option.map_eq_some_iff.mp hs
  dsimp only at hsent
  rcases sent_of_move h.shape (move_of_step hs') with heq | ⟨m, heq, hhead⟩
  · rw [heq] at hsent
    exact absurd hsent.symm (List.cons_ne_self _ _)
  · rw [heq] at hsent
    obtain ⟨rest, hqueue⟩ := hhead agentID u (List.cons.inj hsent).1
    exact h.not_mem_of_sent hqueue hbefore

/-! ## Two tasks -/

theorem initial_orderRun : OrderRun.Initial { sched := oneRobotScheduler } :=
  ⟨initial_oneRobotScheduler, rfl⟩

/-- Two tasks are queued, and the second is sent when the first has been reported completed. -/
theorem first_then_second : ∃ r, Reachable OrderRun.step (fun _ _ ↦ True) OrderRun.Initial r ∧
    r.sched.outbox = [.startTask "robot" "second", .startTask "robot" "first"] ∧
    r.Before "robot" "first" "second" ∧
    (∀ newer older, r.sched.outbox = newer ++ .startTask "robot" "second" :: older →
      .startTask "robot" "first" ∉ newer) ∧
    ∀ act r', r.step act = some r' →
      r'.sched.outbox = .startTask "robot" "second" :: r.sched.outbox →
        "first" ∉ r.sched.taskQueues "robot" := by
  obtain ⟨r, hr, hsent, hqueued⟩ := exists_reachable_of_run OrderRun.step
    (fun _ _ ↦ True) initial_orderRun
    (queueTask "first" :: queueTask "second" :: dispatchNext 1 ++ acknowledgeTask 2 "first" ++
      reportCompleted 3 "first" ++ dispatchNext 4)
    (P := fun r ↦ r.sched.outbox = [.startTask "robot" "second", .startTask "robot" "first"] ∧
      r.queued "robot" = ["first", "second"]) (by decide)
  have hbefore : r.Before "robot" "first" "second" := by
    rw [OrderRun.Before, hqueued]
  exact ⟨r, hr, hsent, hbefore, sends_in_order hr hbefore⟩

end Executor
end FleetServer
