import Cannet.Net.Wakeup

/-!
# What a step of the loop's threads does

`Stepped s op es s'` lists the ways in which a step `op` is made from `s`: what must hold, what is
done (`es`) and where it leads (`s'`). `stepped` says that there is no other way; the invariants of
the loop's threads are proved by cases on it.
-/

namespace Cannet.Net

open Foundations LoopThread

variable {F T : Type}

/-- The counter of the eventfd after one more write. -/
def LoopThread.counted (s : LoopThread F T) : ℕ := min (s.wakeupFd + 1) eventfdMax

theorem LoopThread.counted_pos (s : LoopThread F T) : 0 < s.counted :=
  Nat.lt_min.2 ⟨Nat.succ_pos _, by decide⟩

variable [DecidableEq T]

inductive Stepped (s : LoopThread F T) :
    ThreadOp F T → List (LoopEvent F) → LoopThread F T → Prop
  | publish (h : At .callback s) : Stepped s .publish [] { s with phase := .published }
  | enter (h : At .published s) (hlooping : s.looping = false) :
    Stepped s .enter [] { s with looping := true, quit := false, phase := .testing }
  | leave (h : At .testing s) (hquit : s.quit = true) :
    Stepped s .test [] { s with looping := false, phase := .returned }
  | wait (h : At .testing s) (hquit : s.quit = false) :
    Stepped s .test [] { s with activeChannels := [], phase := .polling }
  | poll {active : List ActiveChannel} (h : At .polling s)
    (hactive : .wakeupChannel ∈ active → 0 < s.wakeupFd) :
    Stepped s (.poll active) [] { s with activeChannels := active, phase := .handling }
  | handleRead {rest : List ActiveChannel} (h : At .handling s)
    (hactive : s.activeChannels = .wakeupChannel :: rest) :
    Stepped s .handleEvent [] { s with activeChannels := rest, wakeupFd := 0 }
  | handle {rest : List ActiveChannel} (h : At .handling s)
    (hactive : s.activeChannels = .channel :: rest) :
    Stepped s .handleEvent [] { s with activeChannels := rest, phase := .inHandler }
  | runFunctors (h : At .handling s) (hactive : s.activeChannels = []) :
    Stepped s .handleEvent [] { s with callingFunctors := true, phase := .swapping }
  | handlerEnd (h : At .inHandler s) : Stepped s .handlerEnd [] { s with phase := .handling }
  | swap (h : At .swapping s) :
    Stepped s .swapFunctors []
      { s with running := s.functors, functors := [], phase := .calling }
  | call {functor : F} {rest : List F} (h : At .calling s)
    (hrunning : s.running = functor :: rest) :
    Stepped s .callFunctor [.executed functor] { s with running := rest, phase := .inFunctor }
  | functorsEnd (h : At .calling s) (hrunning : s.running = []) :
    Stepped s .callFunctor [] { s with callingFunctors := false, phase := .testing }
  | functorEnd (h : At .inFunctor s) : Stepped s .functorEnd [] { s with phase := .calling }
  | append {t : Option T} {functor : F} (h : MayCall t s) :
    Stepped s (.queueInLoop t functor) [.appended functor]
      { s with
        functors := s.functors ++ [functor]
        caller := Function.update s.caller t .appended }
  | appendByRun {t : T} {functor : F} (h : MayCall (some t) s) :
    Stepped s (.runInLoop (some t) functor) [.appended functor]
      { s with
        functors := s.functors ++ [functor]
        caller := Function.update s.caller (some t) .appended }
  | wake {t : Option T} (h : s.caller t = .appended) (hwake : t = none → s.callingFunctors = true) :
    Stepped s (.queueInLoopEnd t) []
      { s with wakeupFd := s.counted, caller := Function.update s.caller t .idle }
  | skip (h : s.caller none = .appended) (hskip : s.callingFunctors = false) :
    Stepped s (.queueInLoopEnd none) [] { s with caller := Function.update s.caller none .idle }
  | callSelf {functor : F} (h : MayCall none s) :
    Stepped s (.runInLoop none functor) [.called functor] s
  | store {t : Option T} (h : MayCall t s) :
    Stepped s (.quitStore t) []
      { s with quit := true, caller := Function.update s.caller t .stored }
  | quitWake {t : T} (h : s.caller (some t) = .stored) :
    Stepped s (.quitEnd (some t)) [.quit]
      { s with wakeupFd := s.counted, caller := Function.update s.caller (some t) .idle }
  | quitSkip (h : s.caller none = .stored) :
    Stepped s (.quitEnd none) [.quit] { s with caller := Function.update s.caller none .idle }

/-! ## There is no other way -/

section Inversion

variable {s : LoopThread F T}

omit [DecidableEq T] in
theorem checkAlive_ok (h : (checkAlive s).val = .ok ()) : checkAlive s = ⟨.ok (), s, []⟩ := by
  rw [checkAlive, Act.get_bind] at h ⊢
  by_cases halive : s.phase ≠ .returned
  · rw [Act.check_pos _ halive]
    rfl
  · rw [Act.check_neg _ halive] at h
    cases h

omit [DecidableEq T] in
/-- A call that returns has found the loop. -/
theorem checkAlive_bind_ok {f : Unit → ThreadStep F T Unit}
    (h : ((checkAlive >>= f) s).val = .ok ()) : (checkAlive >>= f) s = f () s := by
  obtain ⟨a, hcheck, -⟩ := Act.bind_returned h
  rw [Act.bind_ok (checkAlive_ok (congrArg Outcome.val hcheck)), Outcome.after_nil]

omit [DecidableEq T] in
theorem wakeup_ok (h : (wakeup s).val = .ok ()) :
    wakeup s = ⟨.ok (), { s with wakeupFd := s.counted }, []⟩ := by
  rw [wakeup, checkAlive_bind_ok h]
  rfl

omit [DecidableEq T] in
theorem wakeupIf_bind_ok {f : Unit → ThreadStep F T Unit}
    (h : ((wakeupIf true >>= f) s).val = .ok ()) :
    (wakeupIf true >>= f) s = f () { s with wakeupFd := s.counted } := by
  obtain ⟨a, hwake, -⟩ := Act.bind_returned h
  rw [wakeupIf, if_pos rfl] at hwake ⊢
  rw [Act.bind_ok (wakeup_ok (congrArg Outcome.val hwake)), Outcome.after_nil]

theorem queueInLoop_ok {t : Option T} {functor : F}
    (h : (LoopThread.queueInLoop t functor s).val = .ok ()) :
    MayCall t s ∧ LoopThread.queueInLoop t functor s = ⟨.ok (),
      { s with
        functors := s.functors ++ [functor]
        caller := Function.update s.caller t .appended }, [.appended functor]⟩ := by
  obtain ⟨hmay, hx⟩ := Act.await_ok h
  rw [LoopThread.queueInLoop, Act.await_pos hmay, checkAlive_bind_ok hx]
  exact ⟨hmay, rfl⟩

theorem queueInLoopEnd_stepped {t : Option T} (h : (queueInLoopEnd t s).val = .ok ()) :
    Stepped s (.queueInLoopEnd t) (queueInLoopEnd t s).trace (queueInLoopEnd t s).state := by
  obtain ⟨hat, hx⟩ := Act.await_ok h
  rw [Act.get_bind] at hx
  rw [queueInLoopEnd, Act.await_pos hat, Act.get_bind]
  cases hwake : !isInLoopThread t || s.callingFunctors with
  | true =>
    rw [hwake] at hx
    rw [wakeupIf_bind_ok hx]
    refine .wake hat fun ht => ?_
    subst ht
    simpa [isInLoopThread] using hwake
  | false =>
    cases t with
    | none => exact .skip hat (by simpa [isInLoopThread] using hwake)
    | some t => cases hwake

theorem quitEnd_stepped {t : Option T} (h : (quitEnd t s).val = .ok ()) :
    Stepped s (.quitEnd t) (quitEnd t s).trace (quitEnd t s).state := by
  obtain ⟨hat, hx⟩ := Act.await_ok h
  rw [quitEnd, Act.await_pos hat]
  cases t with
  | none => exact .quitSkip hat
  | some t =>
    have hwake : (!isInLoopThread (some t)) = true := rfl
    rw [hwake] at hx ⊢
    rw [wakeupIf_bind_ok hx]
    exact .quitWake hat

theorem enter_stepped (h : (enter s).val = .ok ()) :
    Stepped s .enter (enter s).trace (enter s).state := by
  obtain ⟨hat, hx⟩ := Act.await_ok h
  rw [enter, Act.await_pos hat]
  rw [Act.get_bind] at hx ⊢
  obtain ⟨hlooping, -⟩ := Act.check_bind_ok hx
  rw [Act.check_pos _ hlooping]
  exact .enter hat hlooping

theorem test_stepped (h : (LoopThread.test s).val = .ok ()) :
    Stepped s .test (LoopThread.test s).trace (LoopThread.test s).state := by
  obtain ⟨hat, -⟩ := Act.await_ok h
  rw [LoopThread.test, Act.await_pos hat, Act.get_bind]
  by_cases hquit : s.quit = true
  · rw [if_pos hquit]
    exact .leave hat hquit
  · rw [if_neg hquit]
    exact .wait hat (Bool.eq_false_iff.2 hquit)

theorem handleEvent_stepped (h : (LoopThread.handleEvent s).val = .ok ()) :
    Stepped s .handleEvent (LoopThread.handleEvent s).trace (LoopThread.handleEvent s).state := by
  obtain ⟨hat, -⟩ := Act.await_ok h
  rw [LoopThread.handleEvent, Act.await_pos hat, Act.get_bind]
  rcases hactive : s.activeChannels with _ | ⟨_ | _, rest⟩
  · exact .runFunctors hat hactive
  · exact .handleRead hat hactive
  · exact .handle hat hactive

theorem callFunctor_stepped (h : (LoopThread.callFunctor s).val = .ok ()) :
    Stepped s .callFunctor (LoopThread.callFunctor s).trace (LoopThread.callFunctor s).state := by
  obtain ⟨hat, -⟩ := Act.await_ok h
  rw [LoopThread.callFunctor, Act.await_pos hat, Act.get_bind]
  rcases hrunning : s.running with _ | ⟨functor, rest⟩
  · exact .functorsEnd hat hrunning
  · exact .call hat hrunning

/-- **Every step is one of those listed.** -/
theorem stepped (op : ThreadOp F T) (h : (op.exec s).val = .ok ()) :
    Stepped s op (op.exec s).trace (op.exec s).state := by
  cases op with
  | publish =>
    obtain ⟨hat, -⟩ := Act.await_ok h
    rw [ThreadOp.exec, LoopThread.publish, Act.await_pos hat]
    exact .publish hat
  | enter => exact enter_stepped h
  | test => exact test_stepped h
  | poll active =>
    obtain ⟨hreports, -⟩ := Act.await_ok h
    rw [ThreadOp.exec, LoopThread.poll, Act.await_pos hreports]
    exact .poll hreports.1 hreports.2
  | handleEvent => exact handleEvent_stepped h
  | handlerEnd =>
    obtain ⟨hat, -⟩ := Act.await_ok h
    rw [ThreadOp.exec, LoopThread.handlerEnd, Act.await_pos hat]
    exact .handlerEnd hat
  | swapFunctors =>
    obtain ⟨hat, -⟩ := Act.await_ok h
    rw [ThreadOp.exec, LoopThread.swapFunctors, Act.await_pos hat]
    exact .swap hat
  | callFunctor => exact callFunctor_stepped h
  | functorEnd =>
    obtain ⟨hat, -⟩ := Act.await_ok h
    rw [ThreadOp.exec, LoopThread.functorEnd, Act.await_pos hat]
    exact .functorEnd hat
  | queueInLoop t functor =>
    obtain ⟨hmay, heq⟩ := queueInLoop_ok h
    rw [ThreadOp.exec, heq]
    exact .append hmay
  | queueInLoopEnd t => exact queueInLoopEnd_stepped h
  | runInLoop t functor =>
    cases t with
    | none =>
      obtain ⟨hmay, -⟩ := Act.await_ok h
      have hself : isInLoopThread (none : Option T) = true := rfl
      rw [ThreadOp.exec, LoopThread.runInLoop, if_pos hself, Act.await_pos hmay]
      exact .callSelf hmay
    | some t =>
      obtain ⟨hmay, heq⟩ := queueInLoop_ok h
      have hother : ¬isInLoopThread (some t) = true := Bool.false_ne_true
      rw [ThreadOp.exec, LoopThread.runInLoop, if_neg hother, heq]
      exact .appendByRun hmay
  | quitStore t =>
    obtain ⟨hmay, hx⟩ := Act.await_ok h
    rw [ThreadOp.exec, LoopThread.quitStore, Act.await_pos hmay, checkAlive_bind_ok hx]
    exact .store hmay
  | quitEnd t => exact quitEnd_stepped h

end Inversion

end Cannet.Net
