import Cannet.Foundations.Handoff
import Cannet.Net.Wakeup.Steps

/-!
# The queue of functors

`functors_` hands the functors over to the loop's thread in batches: every step of the threads is a
move of a `Handoff` (`Stepped.move`). A functor that waits while the loop's thread is in
`epoll_wait` has its wakeup: the eventfd is readable or will be written (`Signalled`). The one
exception is a functor queued by the initial callback, before `loop()`.
-/

namespace Cannet.Net

open Foundations LoopThread

variable {F T : Type}

/-! ## In order -/

/-- The functors appended to `functors_`. -/
def appendedOf (es : List (LoopEvent F)) : List F :=
  es.filterMap fun
    | .appended functor => some functor
    | _ => none

/-- The functors that `runFunctors` has called. -/
def executedOf (es : List (LoopEvent F)) : List F :=
  es.filterMap fun
    | .executed functor => some functor
    | _ => none

theorem appendedOf_append (es es' : List (LoopEvent F)) :
    appendedOf (es ++ es') = appendedOf es ++ appendedOf es' := List.filterMap_append

theorem executedOf_append (es es' : List (LoopEvent F)) :
    executedOf (es ++ es') = executedOf es ++ executedOf es' := List.filterMap_append

/-- The queue as its users see it. -/
def handoff (es : List (LoopEvent F)) (s : LoopThread F T) : Handoff F :=
  ⟨executedOf es, s.running, s.functors⟩

/-- The thread is in `runFunctors`. -/
def Phase.runsFunctors : Phase → Bool
  | swapping | calling | inFunctor => true
  | _ => false

/-- The thread has swapped functors out. -/
def Phase.hasBatch : Phase → Bool
  | calling | inFunctor => true
  | _ => false

/-- What `runFunctors` keeps to itself. -/
structure Batched (s : LoopThread F T) : Prop where
  flag : s.callingFunctors = s.phase.runsFunctors
  batch : s.phase.hasBatch = false → s.running = []

/-- Nothing changes for `runFunctors` between two phases that are alike. -/
theorem Batched.goto {s s' : LoopThread F T} (hb : Batched s) {p : Phase} (h : At p s)
    (hflag : s'.callingFunctors = s.callingFunctors)
    (hruns : s'.phase.runsFunctors = p.runsFunctors)
    (hbatch : s'.phase.hasBatch = false → p.hasBatch = false ∧ s'.running = s.running) :
    Batched s' where
  flag := by rw [hflag, hb.flag, h.1, hruns]
  batch hp := by
    obtain ⟨hp, hrunning⟩ := hbatch hp
    rw [hrunning]
    exact hb.batch ((congrArg _ h.1).trans hp)

variable [DecidableEq T] {s s' : LoopThread F T} {op : ThreadOp F T} {es : List (LoopEvent F)}

theorem Batched.step (hb : Batched s) (h : Stepped s op es s') : Batched s' := by
  cases h with
  | publish h | enter h | leave h | wait h | poll h | handle h | handlerEnd h =>
    exact hb.goto h rfl rfl fun _ => ⟨rfl, rfl⟩
  | swap h | call h | functorEnd h => exact hb.goto h rfl rfl fun hp => by cases hp
  | runFunctors h => exact ⟨rfl, fun _ => hb.batch (congrArg _ h.1)⟩
  | functorsEnd h hrunning => exact ⟨rfl, fun _ => hrunning⟩
  | _ => exact ⟨hb.flag, hb.batch⟩

/-- **The queue is a handoff.** -/
theorem Stepped.move (hb : Batched s) (h : Stepped s op es s') (before : List (LoopEvent F)) :
    Handoff.Move (appendedOf es) (handoff before s) (handoff (before ++ es) s') := by
  have hrest : ∀ s₁ : LoopThread F T, s₁.running = s.running → s₁.functors = s.functors →
      executedOf es = [] → Handoff.Move [] (handoff before s) (handoff (before ++ es) s₁) := by
    intro s₁ hrunning hfunctors hes
    rw [handoff, handoff, executedOf_append, hes, List.append_nil, hrunning, hfunctors]
    exact .rest _
  have hput : ∀ (functor : F) (s₁ : LoopThread F T), s₁.running = s.running →
      s₁.functors = s.functors ++ [functor] → executedOf es = [] →
      Handoff.Move [functor] (handoff before s) (handoff (before ++ es) s₁) := by
    intro functor s₁ hrunning hfunctors hes
    rw [handoff, handoff, executedOf_append, hes, List.append_nil, hrunning, hfunctors]
    exact .put _ functor
  cases h with
  | append => exact hput _ _ rfl rfl rfl
  | appendByRun => exact hput _ _ rfl rfl rfl
  | call h hrunning =>
    rw [handoff, handoff, executedOf_append]
    exact .take hrunning
  | swap h =>
    rw [List.append_nil]
    exact .swap (hb.batch (congrArg _ h.1))
  | _ => exact hrest _ rfl rfl rfl

/-! ## Waking the loop -/

/-- The eventfd is readable, or another thread that has appended a functor will write it. -/
def Signalled (s : LoopThread F T) : Prop :=
  0 < s.wakeupFd ∨ ∃ t : T, s.caller (some t) = .appended

/-- The thread comes to the swap of `runFunctors` before it comes to `epoll_wait`. -/
def Phase.swapsNext : Phase → Bool
  | handling | inHandler | swapping => true
  | _ => false

/-- The phases in which code of the loop's user runs on its thread. -/
def Phase.runsUser : Phase → Bool
  | callback | inHandler | inFunctor => true
  | _ => false

/-- The invariant: the loop's thread calls the loop from its user's code only, and a functor that
waits is seen. -/
structure Seen (s : LoopThread F T) : Prop where
  own : s.caller none ≠ .idle → s.phase.runsUser = true
  waiting : s.functors ≠ [] → Signalled s ∨ s.phase.swapsNext = true ∨
    (s.phase = .inFunctor ∧ s.caller none = .appended)

/-- The loop's own thread queues a functor. -/
def ThreadOp.queuesBySelf : ThreadOp F T → Bool
  | queueInLoop none _ => true
  | _ => false

/-- The loop's thread queues a functor from handlers and functors only. -/
def QueuesWhileLooping (call : ThreadCall F T) : Prop :=
  call.input.queuesBySelf = true → call.before.phase ≠ .callback

instance : DecidablePred (QueuesWhileLooping (F := F) (T := T)) := fun _ =>
  inferInstanceAs (Decidable (_ → _))

/-- A thread that is not about to write the eventfd may go on. -/
theorem Signalled.of_caller (h : Signalled s) {t : Option T} {place : Caller}
    (ht : s.caller t ≠ .appended) (hwake : s'.wakeupFd = s.wakeupFd)
    (hcaller : s'.caller = Function.update s.caller t place) : Signalled s' := by
  refine h.imp (fun hpos => hwake ▸ hpos) fun ⟨t', ht'⟩ => ⟨t', ?_⟩
  have hne : some t' ≠ t := by
    rintro rfl
    exact ht ht'
  rw [hcaller, Function.update_of_ne hne]
  exact ht'

omit [DecidableEq T] in
/-- The loop's thread goes on from `p`, without a call of its own. -/
theorem Seen.goto (hs : Seen s) {p : Phase} (h : At p s) (hcaller : s'.caller = s.caller)
    (hwake : s'.wakeupFd = s.wakeupFd) (hfunctors : s'.functors = s.functors)
    (hswaps : p.swapsNext = true → s'.phase.swapsNext = true) : Seen s' where
  own hown := absurd ((congrFun hcaller none).trans h.2) hown
  waiting hne := by
    rw [hfunctors] at hne
    rcases hs.waiting hne with hsig | hphase | ⟨-, hcall⟩
    · refine .inl ?_
      rw [Signalled, hwake, hcaller]
      exact hsig
    · rw [h.1] at hphase
      exact .inr (.inl (hswaps hphase))
    · rw [h.2] at hcall
      cases hcall

omit [DecidableEq T] in
/-- Where the loop's thread may call the loop. -/
theorem LoopThread.MayCall.runsUser {t : Option T} (h : MayCall t s) (ht : t = none) :
    s.phase.runsUser = true := by
  subst ht
  rcases h.2 rfl with hp | hp | hp <;> rw [hp] <;> rfl

/-- A thread goes on in a call of the loop. -/
theorem Seen.own_update (hs : Seen s) (t : Option T) (place : Caller)
    (hplace : t = none → place ≠ .idle → s.phase.runsUser = true)
    (hown : Function.update s.caller t place none ≠ .idle) : s.phase.runsUser = true := by
  by_cases ht : t = none
  · subst ht
    rw [Function.update_self] at hown
    exact hplace rfl hown
  · rw [Function.update_of_ne (Ne.symm ht)] at hown
    exact hs.own hown

/-- Another thread appends a functor. -/
theorem Seen.appendByOther (hs : Seen s) {t : T} {functor : F} :
    Seen { s with
      functors := s.functors ++ [functor]
      caller := Function.update s.caller (some t) .appended } where
  own hown := hs.own_update (some t) .appended (fun ht => by cases ht) hown
  waiting _ := .inl (.inr ⟨t, Function.update_self (some t) _ s.caller⟩)

/-- The loop's thread does, from a handler or a functor. -/
theorem Seen.appendBySelf (hs : Seen s) {functor : F} (h : MayCall none s)
    (hphase : s.phase ≠ .callback) :
    Seen { s with
      functors := s.functors ++ [functor]
      caller := Function.update s.caller none .appended } where
  own hown := hs.own_update none .appended (fun _ _ => h.runsUser rfl) hown
  waiting _ := by
    rcases h.2 rfl with hp | hp | hp
    · exact absurd hp hphase
    · refine .inr (.inl ?_)
      rw [hp]
      rfl
    · exact .inr (.inr ⟨hp, Function.update_self none _ s.caller⟩)

/-- A thread has written the eventfd. -/
theorem Seen.woken (hs : Seen s) {t : Option T} :
    Seen { s with wakeupFd := s.counted, caller := Function.update s.caller t .idle } where
  own hown := hs.own_update t .idle (fun _ hidle => absurd rfl hidle) hown
  waiting _ := .inl (.inl s.counted_pos)

/-- A thread that has no functor to announce goes on. -/
theorem Seen.unannounced (hs : Seen s) {t : Option T} {place : Caller}
    (ht : s.caller t ≠ .appended) (hplace : t = none → place ≠ .idle → s.phase.runsUser = true) :
    Seen { s with caller := Function.update s.caller t place } where
  own hown := hs.own_update t place hplace hown
  waiting hne := by
    rcases hs.waiting hne with hsig | hphase | ⟨hphase, hcall⟩
    · exact .inl (hsig.of_caller ht rfl rfl)
    · exact .inr (.inl hphase)
    · refine .inr (.inr ⟨hphase, ?_⟩)
      have hne : none ≠ t := by
        rintro rfl
        exact ht hcall
      exact (Function.update_of_ne hne place s.caller).trans hcall

/-- The loop's thread has appended a functor outside `runFunctors`: it will run it before it
polls. -/
theorem Seen.skipped (hs : Seen s) (hb : Batched s) (hskip : s.callingFunctors = false) :
    Seen { s with caller := Function.update s.caller none .idle } where
  own hown := hs.own_update none .idle (fun _ hidle => absurd rfl hidle) hown
  waiting hne := by
    rcases hs.waiting hne with hsig | hphase | ⟨hphase, -⟩
    · refine .inl (hsig.imp_right fun ⟨t, ht⟩ => ⟨t, ?_⟩)
      exact (Function.update_of_ne (Option.some_ne_none t) .idle s.caller).trans ht
    · exact .inr (.inl hphase)
    · rw [hb.flag, hphase] at hskip
      cases hskip

/-- **A step keeps it**, unless the initial callback queues a functor. -/
theorem Seen.step (hs : Seen s) (hb : Batched s) (h : Stepped s op es s')
    (hqueues : op.queuesBySelf = true → s.phase ≠ .callback) : Seen s' := by
  cases h with
  | publish h | enter h | leave h | wait h | call h | functorsEnd h | functorEnd h =>
    exact hs.goto h rfl rfl rfl fun hp => by cases hp
  | poll h | handle h | runFunctors h | handlerEnd h => exact hs.goto h rfl rfl rfl fun _ => rfl
  | handleRead h => exact ⟨hs.own, fun _ => .inr (.inl (congrArg _ h.1))⟩
  | swap h => exact ⟨fun hown => absurd h.2 hown, fun hne => absurd rfl hne⟩
  | @append t _ h =>
    cases t with
    | none => exact hs.appendBySelf h (hqueues rfl)
    | some t => exact hs.appendByOther
  | appendByRun h => exact hs.appendByOther
  | wake h hwake => exact hs.woken
  | skip h hskip => exact hs.skipped hb hskip
  | callSelf h => exact hs
  | @store t h =>
    have hidle : s.caller t ≠ .appended := by
      rw [h.1]
      exact Caller.noConfusion
    have hstored : Seen { s with caller := Function.update s.caller t .stored } :=
      hs.unannounced hidle fun ht _ => h.runsUser ht
    exact ⟨hstored.own, hstored.waiting⟩
  | quitWake h => exact hs.woken
  | quitSkip h =>
    have hstored : s.caller none ≠ .appended := by
      rw [h]
      exact Caller.noConfusion
    exact hs.unannounced hstored fun _ hidle => absurd rfl hidle

/-! ## Any run -/

/-- What holds of the queue after `es`. -/
structure QueueInvariant (es : List (LoopEvent F)) (s : LoopThread F T) : Prop where
  all : appendedOf es = (handoff es s).all
  batched : Batched s
  seen : Seen s

omit [DecidableEq T] in
theorem QueueInvariant.start : QueueInvariant [] (LoopThread.start : LoopThread F T) where
  all := rfl
  batched := ⟨rfl, fun _ => rfl⟩
  seen := ⟨fun hown => absurd rfl hown, fun hne => absurd rfl hne⟩

theorem QueueInvariant.step {before : List (LoopEvent F)} (hi : QueueInvariant before s)
    (h : Stepped s op es s')
    (hqueues : op.queuesBySelf = true → s.phase ≠ .callback) :
    QueueInvariant (before ++ es) s' where
  all := by rw [appendedOf_append, (h.move hi.batched before).all_eq, hi.all]
  batched := hi.batched.step h
  seen := hi.seen.step hi.batched h hqueues

theorem queueInvariant {calls : List (ThreadCall F T)}
    (h : Run ThreadOp.exec (fun _ call => QueuesWhileLooping call) LoopThread.start calls s) :
    QueueInvariant (traceOf calls) s := by
  refine h.invariant (I := fun calls s => QueueInvariant (traceOf calls) s) .start ?_
  intro calls s op hi hqueues hok
  rw [traceOf_append, traceOf_singleton]
  exact hi.step (stepped op hok) hqueues

/-- **Queued functors are run in order and wake the loop**: those executed are the first of those
appended, and none waits unannounced while the loop's thread is in `epoll_wait`. -/
theorem functors_run_in_order {calls : List (ThreadCall F T)}
    (h : Run ThreadOp.exec (fun _ call => QueuesWhileLooping call) LoopThread.start calls s) :
    executedOf (traceOf calls) <+: appendedOf (traceOf calls) ∧
      appendedOf (traceOf calls) = executedOf (traceOf calls) ++ s.running ++ s.functors ∧
      (s.phase = .polling → s.functors ≠ [] →
        0 < s.wakeupFd ∨ ∃ t : T, s.caller (some t) = .appended) := by
  have hi := queueInvariant h
  refine ⟨?_, hi.all, fun hpolling hne => ?_⟩
  · rw [hi.all]
    exact Handoff.taken_prefix (handoff (traceOf calls) s)
  · rcases hi.seen.waiting hne with hsig | hphase | ⟨hphase, -⟩
    · exact hsig
    · rw [hpolling] at hphase
      cases hphase
    · rw [hpolling] at hphase
      cases hphase

/-- A functor is queued by a functor, while another thread is between its append and its write. -/
theorem functors_run_in_order_of_two :
    ∃ calls s, Run (ThreadOp.exec (F := ℕ) (T := ℕ)) (fun _ call => QueuesWhileLooping call)
        LoopThread.start calls s ∧
      s.phase = .polling ∧ s.functors = [8, 9] ∧ s.wakeupFd = 1 ∧
      executedOf (traceOf calls) <+: appendedOf (traceOf calls) ∧
      appendedOf (traceOf calls) = executedOf (traceOf calls) ++ s.running ++ s.functors ∧
      (s.phase = .polling → s.functors ≠ [] →
        0 < s.wakeupFd ∨ ∃ t : ℕ, s.caller (some t) = .appended) := by
  have hrun : Run (ThreadOp.exec (F := ℕ) (T := ℕ)) (fun _ call => QueuesWhileLooping call)
      LoopThread.start _ _ :=
    run_replay [.publish, .enter, .test, .queueInLoop (some 1) 7, .queueInLoopEnd (some 1),
      .poll [.wakeupChannel], .handleEvent, .handleEvent, .swapFunctors, .callFunctor,
      .queueInLoop none 8, .queueInLoop (some 2) 9, .queueInLoopEnd none, .functorEnd,
      .callFunctor, .test] (by decide +kernel)
  exact ⟨_, _, hrun, by decide +kernel, by decide +kernel, by decide +kernel,
    functors_run_in_order hrun⟩

end Cannet.Net
