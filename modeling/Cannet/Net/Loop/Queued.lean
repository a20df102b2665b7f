import Cannet.Net.Loop.Requests

/-!
# The queue of functors, told by the steps that queued them

`queuedFunctors` is what a step adds to the queue, and `queuedBy` labels it with something about
the step. Adding what each step queues and taking the front when a functor is called gives the
queue of the loop with its labels (`waiting_of_run`); so a functor that is called can be traced to
the step that queued it.
-/

namespace Cannet.Net

open Foundations

variable {β α : Type}

/-- What an effect adds to the queue. -/
def queuedFunctor (e : LifeEffect (Effect β)) : Option (LoopFunctor β) :=
  e.effect.queued.map (.connection e.obj e.life)

/-- The functors a step queues, in order. -/
def queuedFunctors (call : LoopCall β) : List (LoopFunctor β) :=
  match call.input with
  | .newConnection sockFd connectCallback messageCallback writeCompleteCallback =>
    [.createConnection sockFd connectCallback messageCallback writeCompleteCallback]
  | _ => call.outcome.trace.filterMap queuedFunctor

/-- The same, each with what `label` says of the step. -/
def queuedBy (label : LoopCall β → α) (call : LoopCall β) : List (LoopFunctor β × α) :=
  (queuedFunctors call).map fun functor => (functor, label call)

/-- What a step leaves of a queue: `runFunctor` takes the functor at its front. -/
def afterCalled {γ : Type} (call : LoopCall β) (queue : List γ) : List γ :=
  if (called call).isSome then queue.tail else queue

/-- The queue after `calls`, each functor with the label of the step that queued it. -/
def waitingFunctors (label : LoopCall β → α) (calls : List (LoopCall β)) :
    List (LoopFunctor β × α) :=
  calls.foldl (fun queue call => afterCalled call queue ++ queuedBy label call) []

theorem waitingFunctors_snoc (label : LoopCall β → α) (calls : List (LoopCall β))
    (call : LoopCall β) : waitingFunctors label (calls ++ [call]) =
      afterCalled call (waitingFunctors label calls) ++ queuedBy label call := by
  rw [waitingFunctors, List.foldl_append]
  rfl

theorem map_afterCalled {γ δ : Type} (f : γ → δ) (call : LoopCall β) (queue : List γ) :
    (afterCalled call queue).map f = afterCalled call (queue.map f) := by
  rw [afterCalled, afterCalled]
  split
  · exact List.map_tail
  · rfl

/-! ## One step -/

/-- The queue after the effects `es`, of a call that takes nothing from it. -/
structure Queues (s s' : EventLoop β) (es : List (LifeEffect (Effect β))) : Prop where
  running : s'.running = s.running
  functors : s'.functors = s.functors ++ es.filterMap queuedFunctor

theorem Queues.onConnection (i : ℕ) (x : Conn β Unit) (s : EventLoop β) :
    Queues s (EventLoop.onConnection i x s).state (EventLoop.onConnection i x s).trace := by
  obtain ⟨s', hs', hp⟩ := EventLoop.onConnection_spec i x s
  rw [hs']
  refine ⟨hp.running, ?_⟩
  rw [hp.functors, List.filterMap_map, List.map_filterMap]
  rfl

theorem Queues.createConnection [Inhabited β] (s : EventLoop β) (sockFd : ℤ)
    (connectCallback messageCallback writeCompleteCallback : Option Callback) :
    let o := EventLoop.createConnection sockFd connectCallback messageCallback
      writeCompleteCallback s
    Queues s o.state o.trace := by
  rcases hpool : s.connectionsPool.getLast? with _ | _ | i
  · have hq := Queues.onConnection s.made TcpConnection.connectEstablished
      (s.extended sockFd connectCallback messageCallback writeCompleteCallback)
    rw [EventLoop.createConnection_new s _ _ _ _ hpool]
    exact ⟨hq.running, hq.functors⟩
  · rw [EventLoop.createConnection_null s _ _ _ _ hpool]
    exact ⟨rfl, (List.append_nil _).symm⟩
  · have hq := Queues.onConnection i TcpConnection.connectEstablished (s.reused sockFd i)
    rw [EventLoop.createConnection_reuse s _ _ _ _ hpool]
    exact ⟨hq.running, hq.functors⟩

variable [Inhabited β]

/-- **One step** takes the functor it calls from the front of the queue, and adds its own behind. -/
theorem queue_step {calls : List (LoopCall β)} (s : EventLoop β) (op : LoopOp β)
    (hscheduled : Scheduled calls (Call.make LoopOp.exec op s)) :
    (op.exec s).state.running ++ (op.exec s).state.functors =
      afterCalled (Call.make LoopOp.exec op s) (s.running ++ s.functors) ++
        queuedFunctors (Call.make LoopOp.exec op s) := by
  have hkeep : ∀ {s' es}, Queues s s' es → s'.running ++ s'.functors =
      (s.running ++ s.functors) ++ es.filterMap queuedFunctor := by
    intro s' es hq
    rw [hq.running, hq.functors, List.append_assoc]
  cases op with
  | newConnection => exact (List.append_assoc _ _ _).symm
  | handleEvent i callback => exact hkeep (.onConnection i _ s)
  | request i r => exact hkeep (.onConnection i _ s)
  | swapFunctors =>
    have hnil : s.running = [] := List.isEmpty_iff.1 hscheduled
    show s.functors ++ [] = (s.running ++ s.functors) ++ []
    rw [hnil, List.nil_append]
  | runFunctor w f =>
    cases hrunning : s.running with
    | nil =>
      have hempty := hscheduled
      simp [Scheduled, hrunning] at hempty
    | cons functor rest =>
      have hcalled : called (Call.make LoopOp.exec (.runFunctor w f) s) = some functor := by
        rw [called, Call.make_input, Call.make_before, hrunning]
        rfl
      have hq : Queues { s with running := rest }
          (EventLoop.callFunctor w f functor { s with running := rest }).state
          (EventLoop.callFunctor w f functor { s with running := rest }).trace := by
        cases functor with
        | createConnection sockFd connectCallback messageCallback writeCompleteCallback =>
          exact .createConnection _ sockFd _ _ _
        | connection i life g => exact .onConnection i _ _
      rw [afterCalled, hcalled, queuedFunctors, Call.make_input, Call.make_outcome, LoopOp.exec,
        EventLoop.runFunctor_cons w f hrunning, hq.running, hq.functors]
      exact (List.append_assoc _ _ _).symm

/-- **The labelled queue is the queue of the loop**, in every run. -/
theorem waiting_of_run (label : LoopCall β → α) {calls : List (LoopCall β)} {s : EventLoop β}
    (h : Run LoopOp.exec Scheduled EventLoop.start calls s) :
    (waitingFunctors label calls).map Prod.fst = s.running ++ s.functors := by
  refine h.invariant
    (I := fun calls s => (waitingFunctors label calls).map Prod.fst = s.running ++ s.functors)
    rfl ?_
  intro calls s op hwaiting hscheduled _
  rw [waitingFunctors_snoc, List.map_append, map_afterCalled, hwaiting, queue_step s op hscheduled,
    queuedBy, List.map_map]
  congr 1
  exact List.map_id _

end Cannet.Net
