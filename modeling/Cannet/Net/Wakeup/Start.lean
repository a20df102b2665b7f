import Cannet.Net.Wakeup.Queue

/-!
# Requests made before the loop polls

`loop()` clears `quit_` when it begins, and `queueInLoop` on the loop's own thread writes no wakeup
outside `runFunctors`. A `quit` stored before `loop()` begins is lost, and a functor queued by the
initial callback waits for someone else's wakeup. Every other request is seen
(`no_request_forgotten`).
-/

namespace Cannet.Net

open Foundations LoopThread

variable {F T : Type}

/-- The loop's thread is in `epoll_wait` with nothing to wake it, though it was told to stop or has
functors to run. -/
structure Stuck (es : List (LoopEvent F)) (s : LoopThread F T) : Prop where
  polling : s.phase = .polling
  silent : s.wakeupFd = 0
  returned : ∀ t, s.caller t = .idle
  forgotten : .quit ∈ es ∨ s.functors ≠ []

def Phase.beforeLoop : Phase → Bool
  | callback | published => true
  | _ => false

def ThreadOp.storesQuit : ThreadOp F T → Bool
  | quitStore _ => true
  | _ => false

/-- The step is no request that the loop forgets: no functor queued by the initial callback, no
`quit` stored before `loop()` clears `quit_`. -/
def RequestsWhileLooping (call : ThreadCall F T) : Prop :=
  QueuesWhileLooping call ∧
    (call.input.storesQuit = true → call.before.phase.beforeLoop = false)

instance : DecidablePred (RequestsWhileLooping (F := F) (T := T)) := fun _ =>
  inferInstanceAs (Decidable (_ ∧ (_ → _)))

/-- The invariant: a request to stop is kept in `quit_`, and seen. -/
structure QuitSeen (es : List (LoopEvent F)) (s : LoopThread F T) : Prop where
  early : s.phase.beforeLoop = true → s.quit = false
  kept : (.quit ∈ es ∨ ∃ t, s.caller t = .stored) → s.quit = true
  seen : s.phase = .polling → s.quit = true →
    0 < s.wakeupFd ∨ ∃ t : T, s.caller (some t) = .stored

variable {s s' : LoopThread F T} {before es : List (LoopEvent F)}

/-- The loop's thread goes on, but not to `epoll_wait`. -/
theorem QuitSeen.goto (hq : QuitSeen before s) (hes : .quit ∈ es → .quit ∈ before)
    (hcaller : s'.caller = s.caller) (hquit : s'.quit = s.quit)
    (hphase : s'.phase ≠ .polling)
    (hearly : s'.phase.beforeLoop = true → s.phase.beforeLoop = true) :
    QuitSeen (before ++ es) s' where
  early hp := hquit.trans (hq.early (hearly hp))
  kept hreq := by
    rw [hquit]
    rw [hcaller, List.mem_append, or_iff_left_of_imp hes] at hreq
    exact hq.kept hreq
  seen hp := absurd hp hphase

variable [DecidableEq T] {op : ThreadOp F T}

/-- A thread goes on in a call of the loop that is not `quit`. -/
theorem QuitSeen.call (hq : QuitSeen before s) (hes : .quit ∈ es → .quit ∈ before)
    {t : Option T} {place : Caller} (ht : s.caller t ≠ .stored) (hplace : place ≠ .stored)
    (hcaller : s'.caller = Function.update s.caller t place) (hquit : s'.quit = s.quit)
    (hphase : s'.phase = s.phase) (hwake : 0 < s.wakeupFd → 0 < s'.wakeupFd) :
    QuitSeen (before ++ es) s' := by
  have hstored : ∀ t', s'.caller t' = .stored ↔ s.caller t' = .stored := by
    intro t'
    rw [hcaller]
    by_cases ht' : t' = t
    · subst ht'
      rw [Function.update_self]
      exact iff_of_false hplace ht
    · rw [Function.update_of_ne ht']
  refine ⟨?_, ?_, ?_⟩
  · rw [hphase, hquit]
    exact hq.early
  · rw [hquit, List.mem_append, or_iff_left_of_imp hes]
    simp only [hstored]
    exact hq.kept
  · rw [hphase, hquit]
    simp only [hstored]
    exact fun hp hstop => (hq.seen hp hstop).imp_left hwake

omit [DecidableEq T] in
/-- Once `quit_` is stored for good, it is seen if the loop's thread has a wakeup. -/
theorem QuitSeen.stop (hphase : s.phase.beforeLoop = false) (hstop : s.quit = true)
    (hseen : s.phase = .polling → 0 < s.wakeupFd ∨ ∃ t : T, s.caller (some t) = .stored) :
    QuitSeen before s where
  early hp := by
    rw [hphase] at hp
    cases hp
  kept _ := hstop
  seen hp _ := hseen hp

omit [DecidableEq T] in
theorem QuitSeen.afterStart (hq : QuitSeen before s) (hstop : s.quit = true) :
    s.phase.beforeLoop = false := by
  by_contra hearly
  rw [hq.early (Bool.not_eq_false _ ▸ hearly)] at hstop
  cases hstop

/-- **A step keeps it**, unless it stores `quit_` before `loop()`. -/
theorem QuitSeen.step (hq : QuitSeen before s) (hs : Seen s) (h : Stepped s op es s')
    (hstores : op.storesQuit = true → s.phase.beforeLoop = false) :
    QuitSeen (before ++ es) s' := by
  have hnil : ∀ {e : LoopEvent F}, e ∈ ([] : List (LoopEvent F)) → e ∈ before :=
    fun hmem => absurd hmem List.not_mem_nil
  have hnot : ∀ {t place}, s.caller t = place → place ≠ .stored → s.caller t ≠ .stored :=
    fun ht hplace => ht ▸ hplace
  cases h with
  | publish h => exact hq.goto hnil rfl rfl Phase.noConfusion fun _ => congrArg _ h.1
  | enter h =>
    have hquit : s.quit = false := hq.early (congrArg _ h.1)
    refine ⟨fun _ => rfl, fun hreq => ?_, fun hp => by cases hp⟩
    rw [List.append_nil] at hreq
    rw [hq.kept hreq] at hquit
    cases hquit
  | wait h hquit =>
    rw [List.append_nil]
    refine ⟨fun _ => hquit, hq.kept, fun _ hstop => ?_⟩
    rw [hquit] at hstop
    cases hstop
  | leave h | poll h | handle h | runFunctors h | handlerEnd h | swap h | functorsEnd h
  | functorEnd h =>
    exact hq.goto hnil rfl rfl Phase.noConfusion fun hp => by cases hp
  | handleRead h => exact hq.goto hnil rfl rfl (h.1 ▸ Phase.noConfusion) id
  | call h => exact hq.goto (by simp) rfl rfl Phase.noConfusion fun hp => by cases hp
  | append h =>
    exact hq.call (by simp) (hnot h.1 Caller.noConfusion) Caller.noConfusion rfl rfl rfl id
  | appendByRun h =>
    exact hq.call (by simp) (hnot h.1 Caller.noConfusion) Caller.noConfusion rfl rfl rfl id
  | wake h =>
    exact hq.call hnil (hnot h Caller.noConfusion) Caller.noConfusion rfl rfl rfl
      fun _ => s.counted_pos
  | skip h => exact hq.call hnil (hnot h Caller.noConfusion) Caller.noConfusion rfl rfl rfl id
  | callSelf h =>
    refine hq.goto (by simp) rfl rfl (fun hpolling => ?_) id
    have huser := h.runsUser rfl
    rw [hpolling] at huser
    cases huser
  | @store t h =>
    refine .stop (hstores rfl) rfl fun hpolling => ?_
    cases t with
    | none =>
      have huser := h.runsUser rfl
      rw [show s.phase = .polling from hpolling] at huser
      cases huser
    | some t => exact .inr ⟨t, Function.update_self (some t) _ s.caller⟩
  | @quitWake t h =>
    have hstop : s.quit = true := hq.kept (.inr ⟨some t, h⟩)
    exact .stop (hq.afterStart hstop) hstop fun _ => .inl s.counted_pos
  | quitSkip h =>
    have hstop : s.quit = true := hq.kept (.inr ⟨none, h⟩)
    refine .stop (hq.afterStart hstop) hstop fun hpolling => ?_
    have huser := hs.own (h ▸ Caller.noConfusion)
    rw [show s.phase = .polling from hpolling] at huser
    cases huser

theorem quitSeen {calls : List (ThreadCall F T)}
    (h : Run ThreadOp.exec (fun _ call => RequestsWhileLooping call) LoopThread.start calls s) :
    QueueInvariant (traceOf calls) s ∧ QuitSeen (traceOf calls) s := by
  refine h.invariant (I := fun calls s => QueueInvariant (traceOf calls) s ∧
    QuitSeen (traceOf calls) s) ⟨.start, fun _ => rfl, ?_, fun hp => by cases hp⟩ ?_
  · rintro (hmem | ⟨t, ht⟩)
    · cases hmem
    · cases ht
  · rintro calls s op ⟨hi, hq⟩ ⟨hqueues, hstores⟩ hok
    rw [traceOf_append, traceOf_singleton]
    exact ⟨hi.step (stepped op hok) hqueues, hq.step hi.seen (stepped op hok) hstores⟩

/-- **No request is forgotten** in a run without a functor queued by the initial callback and
without a `quit` stored before `loop()` clears `quit_`. -/
theorem no_request_forgotten {calls : List (ThreadCall F T)}
    (h : Run ThreadOp.exec (fun _ call => RequestsWhileLooping call) LoopThread.start calls s) :
    ¬Stuck (traceOf calls) s := by
  obtain ⟨hi, hq⟩ := quitSeen h
  rintro ⟨hpolling, hsilent, hreturned, hquit | hne⟩
  · rcases hq.seen hpolling (hq.kept (.inl hquit)) with hpos | ⟨t, ht⟩
    · omega
    · rw [hreturned] at ht
      cases ht
  · rcases hi.seen.waiting hne with (hpos | ⟨t, ht⟩) | hphase | ⟨hphase, -⟩
    · omega
    · rw [hreturned] at ht
      cases ht
    · rw [hpolling] at hphase
      cases hphase
    · rw [hpolling] at hphase
      cases hphase

/-- Another thread queues a functor before `loop()` begins and stops the loop while it polls. -/
theorem no_request_forgotten_of_quit :
    ∃ calls s, Run (ThreadOp.exec (F := ℕ) (T := ℕ)) (fun _ call => RequestsWhileLooping call)
        LoopThread.start calls s ∧
      s.phase = .polling ∧ LoopEvent.quit ∈ traceOf calls ∧ s.functors = [7] ∧
      ¬Stuck (traceOf calls) s := by
  have hrun : Run (ThreadOp.exec (F := ℕ) (T := ℕ)) (fun _ call => RequestsWhileLooping call)
      LoopThread.start _ _ :=
    run_replay [.publish, .queueInLoop (some 1) 7, .enter, .test, .queueInLoopEnd (some 1),
      .quitStore (some 1), .quitEnd (some 1)] (by decide +kernel)
  exact ⟨_, _, hrun, by decide +kernel, by decide +kernel, by decide +kernel,
    no_request_forgotten hrun⟩

/-! ## The requests that are forgotten -/

/-- `startLoop` returns and the thread is stopped at once: `quit` is stored before `loop()` clears
`quit_`, and its wakeup is used up by the first turn of the loop. -/
theorem early_quit_forgotten :
    ¬∀ (calls : List (ThreadCall ℕ Unit)) (s : LoopThread ℕ Unit),
      Run ThreadOp.exec (fun _ _ => True) LoopThread.start calls s → ¬Stuck (traceOf calls) s := by
  intro h
  have hrun : Run (ThreadOp.exec (F := ℕ) (T := Unit)) (fun _ _ => True) LoopThread.start _ _ :=
    run_replay [.publish, .quitStore (some ()), .quitEnd (some ()), .enter, .test,
      .poll [.wakeupChannel], .handleEvent, .handleEvent, .swapFunctors, .callFunctor, .test]
      (by decide +kernel)
  refine h _ _ hrun ⟨by decide +kernel, by decide +kernel, ?_, by decide +kernel⟩
  rintro (_ | ⟨⟨⟩⟩) <;> decide +kernel

/-- The initial callback queues a functor, and no other thread calls the loop. -/
theorem callback_functor_forgotten :
    ∃ calls s, Run (ThreadOp.exec (F := ℕ) (T := Unit)) (fun _ _ => True) LoopThread.start calls s ∧
      LoopEvent.quit ∉ traceOf calls ∧ Stuck (traceOf calls) s := by
  have hrun : Run (ThreadOp.exec (F := ℕ) (T := Unit)) (fun _ _ => True) LoopThread.start _ _ :=
    run_replay [.queueInLoop none 7, .queueInLoopEnd none, .publish, .enter, .test]
      (by decide +kernel)
  refine ⟨_, _, hrun, by decide +kernel, by decide +kernel, by decide +kernel, ?_,
    by decide +kernel⟩
  rintro (_ | ⟨⟨⟩⟩) <;> decide +kernel

end Cannet.Net
