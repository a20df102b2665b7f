import Cannet.Base.ThreadPool.Steps

/-!
# What becomes of the tasks

A task is added by anybody, taken from the queue by one of the workers and run by the same one. The
tasks are taken in the order in which they were added, and each worker runs what it has taken, in
that order, with the last one in its hand meanwhile (`tasks_run_once`).
-/

namespace Cannet.Base

open Foundations

variable {τ κ : Type}

/-- The task that a worker has taken and has not run yet. -/
def Worker.hand : Worker τ → List τ
  | popped task => [task]
  | _ => []

/-! ## The history of the tasks -/

def addedIn (call : PoolCall τ κ) : Option τ :=
  match call.input with
  | .addTask task => some task
  | _ => none

/-- The task that a worker takes from the queue, and the worker. -/
def takenIn (call : PoolCall τ κ) : Option (κ × τ) :=
  match call.input with
  | .popHead k => (call.outcome.state.worker k).hand.head?.map (k, ·)
  | _ => none

/-- The task that a worker runs, and the worker. -/
def ranIn (call : PoolCall τ κ) : Option (κ × τ) :=
  match call.input with
  | .runTask k => (call.before.worker k).hand.head?.map (k, ·)
  | _ => none

/-- The tasks added, in order. -/
def added (calls : List (PoolCall τ κ)) : List τ := calls.filterMap addedIn

/-- The tasks taken, in order, and by whom. -/
def taken (calls : List (PoolCall τ κ)) : List (κ × τ) := calls.filterMap takenIn

/-- The tasks run, in order, and by whom. -/
def ran (calls : List (PoolCall τ κ)) : List (κ × τ) := calls.filterMap ranIn

section Histories

variable (calls : List (PoolCall τ κ)) (call : PoolCall τ κ)

/-- The history of one call more. -/
theorem filterMap_snoc {γ : Type} (f : PoolCall τ κ → Option γ) :
    (calls ++ [call]).filterMap f = calls.filterMap f ++ (f call).toList := by
  rw [List.filterMap_append, List.filterMap_cons]
  cases f call <;> rfl

theorem added_snoc : added (calls ++ [call]) = added calls ++ (addedIn call).toList :=
  filterMap_snoc calls call addedIn

theorem taken_snoc : taken (calls ++ [call]) = taken calls ++ (takenIn call).toList :=
  filterMap_snoc calls call takenIn

theorem ran_snoc : ran (calls ++ [call]) = ran calls ++ (ranIn call).toList :=
  filterMap_snoc calls call ranIn

end Histories

variable [DecidableEq κ]

/-- What is one worker's in a list of tasks. -/
def ofWorker (k : κ) (tasks : List (κ × τ)) : List τ :=
  (tasks.filter (·.1 = k)).map Prod.snd

theorem ofWorker_append (k : κ) (tasks tasks' : List (κ × τ)) :
    ofWorker k (tasks ++ tasks') = ofWorker k tasks ++ ofWorker k tasks' := by
  rw [ofWorker, List.filter_append, List.map_append]
  rfl

@[simp] theorem ofWorker_nil (k : κ) : ofWorker k ([] : List (κ × τ)) = [] := rfl

@[simp] theorem ofWorker_self (k : κ) (task : τ) : ofWorker k [(k, task)] = [task] := by
  simp [ofWorker]

theorem ofWorker_other {k d : κ} (h : d ≠ k) (task : τ) : ofWorker d [(k, task)] = [] := by
  simp [ofWorker, h.symm]

/-! ## The queue and the hands -/

namespace ThreadSafeQueue

variable {s s' : ThreadSafeQueue τ κ} {qop : QueueOp τ κ} {es : List (QueueEvent τ)}

/-- Only a push adds a value to the queue, and only the end of a pop removes one. -/
theorem Stepped.silent (h : Stepped s qop es s') (hpush : ∀ x, qop ≠ .push x)
    (hpop : ∀ c, qop ≠ .popHead c) : pushedOf es = [] ∧ poppedOf es = [] := by
  cases h with
  | push x => exact absurd rfl (hpush x)
  | popMoved | popFound => exact absurd rfl (hpop _)
  | _ => exact ⟨rfl, rfl⟩

/-- What a consumer has moved out is what it removes. -/
theorem Stepped.popped_of_moved {c : κ} {x : τ} (h : Stepped s (.popHead c) es s')
    (hc : s.consumer c = .moved x) : es = [.popped (some x)] := by
  cases h with
  | popMoved hmoved =>
    rw [hc] at hmoved
    obtain rfl := Consumer.moved.inj hmoved
    rfl
  | popFound hfound =>
    rw [hc] at hfound
    cases hfound

end ThreadSafeQueue

namespace ThreadPool

/-! ## Steps that are made -/

section Made

variable {s : ThreadPool τ κ} {k : κ}

theorem initCallback_ok (h : (initCallback k s).val = .ok ()) :
    s.worker k = .starting ∧ initCallback k s = setWorker k .testing s := by
  rw [initCallback, Act.get_bind] at h ⊢
  cases hw : s.worker k with
  | starting => exact ⟨rfl, rfl⟩
  | _ =>
    rw [hw] at h
    cases h

theorem test_ok (h : (test k s).val = .ok ()) :
    s.worker k = .testing ∧ ∃ w : Worker τ, w.hand = [] ∧ test k s = setWorker k w s := by
  rw [test, Act.get_bind] at h ⊢
  cases hw : s.worker k with
  | testing =>
    cases s.running with
    | true => exact ⟨rfl, .waiting, rfl, rfl⟩
    | false => exact ⟨rfl, .returned, rfl, rfl⟩
  | _ =>
    rw [hw] at h
    cases h

theorem lock_ok (h : (lock k s).val = .ok ()) :
    lock k s = onQueue (ThreadSafeQueue.lock (some k) ⟨true, true⟩) s := by
  rw [lock, Act.get_bind] at h ⊢
  cases hw : s.worker k with
  | waiting => rfl
  | _ =>
    rw [hw] at h
    cases h

theorem popHead_ok (h : (popHead k s).val = .ok ()) :
    ∃ task, s.taskQueue.consumer (some k) = .moved task ∧
      s.taskQueue.Stepped (.popHead (some k)) ((QueueOp.popHead (some k)).exec s.taskQueue).trace
        ((QueueOp.popHead (some k)).exec s.taskQueue).state ∧
      (popHead k s).state = { s with
        taskQueue := ((QueueOp.popHead (some k)).exec s.taskQueue).state
        worker := Function.update s.worker k (.popped task) } := by
  rw [popHead, Act.get_bind] at h ⊢
  cases hplace : s.taskQueue.consumer (some k) with
  | moved task =>
    rw [hplace] at h
    exact ⟨task, rfl, onQueue_bind_ok (.popHead (some k)) h⟩
  | _ =>
    rw [hplace] at h
    cases h

theorem runTask_ok (h : (runTask k s).val = .ok ()) :
    ∃ task, s.worker k = .popped task ∧ runTask k s = setWorker k .testing s := by
  rw [runTask, Act.get_bind] at h ⊢
  cases hw : s.worker k with
  | popped task => exact ⟨task, rfl, rfl⟩
  | _ =>
    rw [hw] at h
    cases h

omit [DecidableEq κ] in
theorem store_ok (h : (store s).val = .ok ()) :
    (store s).state = { s with running := false, stopper := .stored } := by
  rw [store, Act.get_bind] at h ⊢
  cases hstopper : s.stopper with
  | idle => rfl
  | _ =>
    rw [hstopper] at h
    cases h

theorem lockHead_made (h : (lockHead s).val = .ok ()) :
    s.taskQueue.Stepped (.lock none ⟨false, false⟩)
        ((QueueOp.lock none ⟨false, false⟩).exec s.taskQueue).trace
        ((QueueOp.lock none ⟨false, false⟩).exec s.taskQueue).state ∧
      (lockHead s).state = { s with
        taskQueue := ((QueueOp.lock none ⟨false, false⟩).exec s.taskQueue).state
        stopper := .emptying } := by
  rw [lockHead, Act.get_bind] at h ⊢
  cases hstopper : s.stopper with
  | stored =>
    rw [hstopper] at h
    exact onQueue_bind_ok (.lock none ⟨false, false⟩) h
  | _ =>
    rw [hstopper] at h
    cases h

end Made

/-! ## Tasks in order and in hand -/

/-- The queue has the values of its history, and the workers have what they took and did not run. -/
structure Handed (calls : List (PoolCall τ κ)) (s : ThreadPool τ κ) : Prop where
  order : ∃ es nodes vals, s.taskQueue.Fifo es nodes vals ∧ pushedOf es = added calls ∧
    poppedOf es = (taken calls).map (some ·.2)
  hands : ∀ k, ofWorker k (taken calls) = ofWorker k (ran calls) ++ (s.worker k).hand

theorem start_handed : Handed [] (start : ThreadPool τ κ) where
  order := ⟨[], [], [], ThreadSafeQueue.init_fifo, rfl, rfl⟩
  hands _ := rfl

namespace Handed

variable {calls : List (PoolCall τ κ)} {call : PoolCall τ κ} {s s' : ThreadPool τ κ} {k : κ}

/-- A step in the queue that takes nothing and adds what `addedIn` says. -/
theorem queue {qop : QueueOp τ (Option κ)} {es : List (QueueEvent τ)}
    {q : ThreadSafeQueue τ (Option κ)} (h : Handed calls s) (hq : s.taskQueue.Stepped qop es q)
    (hs' : s'.taskQueue = q) (hworker : s'.worker = s.worker)
    (hadded : pushedOf es = (addedIn call).toList) (hpopped : poppedOf es = [])
    (htaken : takenIn call = none) (hran : ranIn call = none) : Handed (calls ++ [call]) s' := by
  obtain ⟨es₀, nodes, vals, hfifo, hpush, hpop⟩ := h.order
  obtain ⟨nodes', vals', hfifo'⟩ := hfifo.step hq
  refine ⟨⟨_, nodes', vals', hs' ▸ hfifo', ?_, ?_⟩, fun d => ?_⟩
  · rw [pushedOf_append, added_snoc, hpush, hadded]
  · rw [poppedOf_append, taken_snoc, hpop, hpopped, htaken, Option.toList_none, List.append_nil,
      List.append_nil]
  · rw [taken_snoc, ran_snoc, htaken, hran, hworker, Option.toList_none, List.append_nil,
      List.append_nil]
    exact h.hands d

/-- A worker goes on without the queue, and runs the task in its hand if it has one. -/
theorem goes {w : Worker τ} (h : Handed calls s) (hs' : s'.taskQueue = s.taskQueue)
    (hworker : s'.worker = Function.update s.worker k w) (hadded : addedIn call = none)
    (htaken : takenIn call = none)
    (hran : (s.worker k).hand = ofWorker k (ranIn call).toList ++ w.hand)
    (hothers : ∀ d, d ≠ k → ofWorker d (ranIn call).toList = []) :
    Handed (calls ++ [call]) s' := by
  refine ⟨?_, fun d => ?_⟩
  · rw [added_snoc, taken_snoc, hadded, htaken, Option.toList_none, Option.toList_none,
      List.append_nil, List.append_nil, hs']
    exact h.order
  · rw [taken_snoc, ran_snoc, htaken, Option.toList_none, List.append_nil, ofWorker_append,
      List.append_assoc, h.hands d, hworker]
    by_cases hd : d = k
    · rw [hd, Function.update_self, hran]
    · rw [Function.update_of_ne hd, hothers d hd, List.nil_append]

/-- Everything stays where it is. -/
theorem same (h : Handed calls s) (hs' : s'.taskQueue = s.taskQueue)
    (hworker : s'.worker = s.worker) (hadded : addedIn call = none) (htaken : takenIn call = none)
    (hran : ranIn call = none) : Handed (calls ++ [call]) s' := by
  refine ⟨?_, fun d => ?_⟩
  · rw [added_snoc, taken_snoc, hadded, htaken, Option.toList_none, Option.toList_none,
      List.append_nil, List.append_nil, hs']
    exact h.order
  · rw [taken_snoc, ran_snoc, htaken, hran, Option.toList_none, List.append_nil, List.append_nil,
      hworker]
    exact h.hands d

/-- A worker takes the task that it has moved out. -/
theorem takes {task : τ} {es : List (QueueEvent τ)} {q : ThreadSafeQueue τ (Option κ)}
    (h : Handed calls s) (hc : s.taskQueue.consumer (some k) = .moved task)
    (hq : s.taskQueue.Stepped (.popHead (some k)) es q) (hempty : (s.worker k).hand = [])
    (hs' : s'.taskQueue = q) (hworker : s'.worker = Function.update s.worker k (.popped task))
    (hadded : addedIn call = none) (htaken : takenIn call = some (k, task))
    (hran : ranIn call = none) : Handed (calls ++ [call]) s' := by
  obtain ⟨es₀, nodes, vals, hfifo, hpush, hpop⟩ := h.order
  obtain ⟨nodes', vals', hfifo'⟩ := hfifo.step hq
  obtain rfl := hq.popped_of_moved hc
  refine ⟨⟨_, nodes', vals', hs' ▸ hfifo', ?_, ?_⟩, fun d => ?_⟩
  · rw [pushedOf_append, added_snoc, hpush, hadded]
    rfl
  · rw [poppedOf_append, taken_snoc, hpop, htaken, List.map_append]
    rfl
  · rw [taken_snoc, ran_snoc, htaken, hran, hworker, Option.toList_none, List.append_nil,
      ofWorker_append, h.hands d, List.append_assoc]
    by_cases hd : d = k
    · rw [hd, hempty, Function.update_self, Option.toList_some, ofWorker_self]
      rfl
    · rw [Function.update_of_ne hd, Option.toList_some, ofWorker_other hd, List.append_nil]

/-- A worker that has nothing in its hand before and after. -/
theorem moves {w : Worker τ} (h : Handed calls s) (hbefore : (s.worker k).hand = [])
    (hafter : w.hand = []) (hs' : s'.taskQueue = s.taskQueue)
    (hworker : s'.worker = Function.update s.worker k w) (hadded : addedIn call = none)
    (htaken : takenIn call = none) (hran : ranIn call = none) : Handed (calls ++ [call]) s' := by
  refine h.goes hs' hworker hadded htaken ?_ fun d _ => by rw [hran]; rfl
  rw [hran, hbefore, hafter]
  rfl

/-- **A step keeps the tasks in order and in hand.** -/
theorem step (h : Handed calls s) (hc : Coherent s) (op : PoolOp τ κ)
    (hok : (op.exec s).val = .ok ()) :
    Handed (calls ++ [Call.make PoolOp.exec op s]) (op.exec s).state := by
  cases op with
  | addTask task =>
    exact h.queue (onQueue_stepped (.push task) hok) rfl rfl rfl rfl rfl rfl
  | notifyOne woken =>
    have hq := onQueue_stepped (.notifyOne (woken.map some)) hok
    obtain ⟨hpush, hpop⟩ := hq.silent (fun _ h => by cases h) fun _ h => by cases h
    exact h.queue hq rfl rfl hpush hpop rfl rfl
  | wait k step =>
    have hq := onQueue_stepped (step.op (some k)) hok
    obtain ⟨hpush, hpop⟩ := hq.silent (fun _ h => by cases step <;> cases h)
      fun _ h => by cases step <;> cases h
    exact h.queue hq rfl rfl hpush hpop rfl rfl
  | lock k =>
    have hexec := lock_ok hok
    rw [PoolOp.exec, hexec] at hok ⊢
    have hq := onQueue_stepped (.lock (some k) ⟨true, true⟩) hok
    obtain ⟨hpush, hpop⟩ := hq.silent (fun _ h => by cases h) fun _ h => by cases h
    exact h.queue hq rfl rfl hpush hpop rfl rfl
  | initCallback k =>
    obtain ⟨hw, hexec⟩ := initCallback_ok hok
    rw [PoolOp.exec, hexec]
    exact h.moves (k := k) (w := .testing) (by rw [hw]; rfl) rfl rfl rfl rfl rfl rfl
  | test k =>
    obtain ⟨hw, w, hempty, hexec⟩ := test_ok hok
    rw [PoolOp.exec, hexec]
    exact h.moves (k := k) (w := w) (by rw [hw]; rfl) hempty rfl rfl rfl rfl rfl
  | popHead k =>
    obtain ⟨task, hplace, hq, hstate⟩ := popHead_ok hok
    have hwaiting := (hc.waiting (k := k) fun h => by rw [hplace] at h; cases h).1
    refine h.takes hplace hq (by rw [hwaiting]; rfl) (by rw [PoolOp.exec, hstate])
      (by rw [PoolOp.exec, hstate]) rfl ?_ rfl
    have hw : (popHead k s).state.worker k = .popped task := by
      rw [hstate]
      exact Function.update_self k _ s.worker
    show ((popHead k s).state.worker k).hand.head?.map (k, ·) = _
    rw [hw]
    rfl
  | runTask k =>
    obtain ⟨task, hw, hexec⟩ := runTask_ok hok
    have hran : ranIn (Call.make PoolOp.exec (.runTask k) s) = some (k, task) := by
      show (s.worker k).hand.head?.map (k, ·) = _
      rw [hw]
      rfl
    refine h.goes (k := k) (w := .testing) (by rw [PoolOp.exec, hexec]; rfl)
      (by rw [PoolOp.exec, hexec]; rfl) rfl rfl ?_ fun d hd => ?_
    · rw [hran, hw, Option.toList_some, ofWorker_self]
      rfl
    · rw [hran, Option.toList_some, ofWorker_other hd]
  | store =>
    have hstate := store_ok hok
    exact h.same (by rw [PoolOp.exec, hstate]) (by rw [PoolOp.exec, hstate]) rfl rfl rfl
  | lockHead =>
    obtain ⟨hq, hstate⟩ := lockHead_made hok
    obtain ⟨hpush, hpop⟩ := hq.silent (fun _ h => by cases h) fun _ h => by cases h
    exact h.queue hq (by rw [PoolOp.exec, hstate]) (by rw [PoolOp.exec, hstate]) hpush hpop rfl rfl
  | lockEmpty => exact not_waits hok (lockEmpty_waits hc)
  | compareEmpty => exact not_waits hok (compareEmpty_waits hc)
  | notifyAll => exact not_waits hok (notifyAll_waits hc)

end Handed

variable {calls : List (PoolCall τ κ)} {s : ThreadPool τ κ}

theorem run_handed (h : Run PoolOp.exec (fun _ _ => True) start calls s) :
    Coherent s ∧ Handed calls s :=
  h.invariant (I := fun calls s => Coherent s ∧ Handed calls s) ⟨start_coherent, start_handed⟩
    fun _ _ op ⟨hc, hhanded⟩ _ hok => ⟨hc.step (hc.stepped hok), hhanded.step hc op hok⟩

end ThreadPool

end Cannet.Base
