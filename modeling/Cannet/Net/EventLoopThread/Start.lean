import Cannet.Net.EventLoopThread.Steps

/-!
# A pool that starts

`Starting` is what `start` keeps: the threads before the current one have published their loops, the
ones after it are not there yet, and the current one is as far as `start` has seen.
-/

namespace Cannet.Net

open Foundations Base EventLoopThread

variable {F T : Type}

/-- What `start` knows where it is: of the number of its current thread, and of the thread. -/
def StartCall.Knows (current numThreads : ℕ) (t : EventLoopThread F T) : StartCall → Prop
  | testing => t.place = .unborn
  | latched => current < numThreads ∧ t.place ≠ .unborn
  | asserting | waiting => current < numThreads ∧ t.place.isCounted = true
  | found => current < numThreads ∧ t.wasPublished = true
  | returned => current = numThreads ∧ t.place = .unborn

/-- Whatever the current thread does. -/
theorem StartCall.Knows.goes [DecidableEq T] {current numThreads : ℕ} {t t' : EventLoopThread F T}
    {ptr : LoopPtr} {inner : Option (ThreadOp F T)} {place : StartCall}
    (h : place.Knows current numThreads t) (hgoes : t.Goes ptr inner t') :
    place.Knows current numThreads t' := by
  cases place with
  | testing => exact absurd h hgoes.born.1
  | latched => exact ⟨h.1, hgoes.born.2⟩
  | asserting | waiting => exact ⟨h.1, hgoes.counted h.2⟩
  | found => exact ⟨h.1, hgoes.published h.2⟩
  | returned => exact absurd h.2 hgoes.born.1

namespace StartingPool

/-- What is in `loops_` for a thread: its loop, or nothing if the loop has ended. -/
def Handed (i : ℕ) (t : EventLoopThread F T) (loop : Option LoopPtr) : Prop :=
  t.wasPublished = true ∧ (loop = some (.thread i) ∨ loop = none ∧ t.place = .ended)

structure Starting (s : StartingPool F T) : Prop where
  sound : ∀ i, (s.threads i).Sound (.thread i)
  later : ∀ i, s.current < i → (s.threads i).place = .unborn
  bounded : s.current ≤ s.numThreads
  knows : s.starter.Knows s.current s.numThreads (s.threads s.current)
  earlier : ∀ i loop, s.loops[i]? = some loop → Handed i (s.threads i) loop

theorem init_starting (n : ℕ) : (init n : StartingPool F T).Starting where
  sound i := init_sound _
  later _ _ := rfl
  bounded := Nat.zero_le n
  knows := rfl
  earlier _ _ h := by cases h

variable {s s' : StartingPool F T} {i j : ℕ} {t : EventLoopThread F T}

@[simp] theorem withThread_self : (s.withThread i t).threads i = t := by
  simp only [withThread, Function.update_self]

theorem withThread_other (h : j ≠ i) : (s.withThread i t).threads j = s.threads j := by
  simp only [withThread, Function.update_of_ne h]

theorem lt_current_of_some {loop : Option LoopPtr} (h : s.loops[i]? = some loop) :
    i < s.current := (List.getElem?_eq_some_iff.1 h).1

namespace Starting

/-- `start` does something with the current thread. -/
theorem here (h : s.Starting) (ht : t.Sound (.thread s.current)) (place : StartCall)
    (hknows : place.Knows s.current s.numThreads t) :
    ({ s.withThread s.current t with starter := place } : StartingPool F T).Starting where
  sound i := by
    by_cases hi : i = s.current
    · rw [hi]
      exact withThread_self.symm ▸ ht
    · exact (withThread_other hi).symm ▸ h.sound i
  later i hi := by
    have hne : i ≠ s.current := Nat.ne_of_gt hi
    exact (withThread_other hne).symm ▸ h.later i hi
  bounded := h.bounded
  knows := by
    show place.Knows s.current s.numThreads ((s.withThread s.current t).threads s.current)
    rwa [withThread_self]
  earlier i loop hloop := by
    have hne : i ≠ s.current := Nat.ne_of_lt (lt_current_of_some hloop)
    show Handed i ((s.withThread s.current t).threads i) loop
    rw [withThread_other hne]
    exact h.earlier i loop hloop

variable [DecidableEq T]

/-- **A thread's step** changes nothing that `start` knows. -/
theorem thread {inner : Option (ThreadOp F T)} (h : s.Starting)
    (hgoes : (s.threads i).Goes (.thread i) inner t) : (s.withThread i t).Starting := by
  refine ⟨fun j => ?_, fun j hj => ?_, h.bounded, ?_, fun j loop hloop => ?_⟩
  · by_cases hj : j = i
    · rw [hj, withThread_self]
      exact hgoes.sound (h.sound i)
    · rw [withThread_other hj]
      exact h.sound j
  · by_cases hji : j = i
    · exact absurd (h.later i (hji ▸ hj)) hgoes.born.1
    · rw [withThread_other hji]
      exact h.later j hj
  · show s.starter.Knows s.current s.numThreads ((s.withThread i t).threads s.current)
    by_cases hi : s.current = i
    · rw [hi, withThread_self, ← hi]
      have hknows := h.knows
      rw [hi] at hknows
      exact hi ▸ hknows.goes hgoes
    · rw [withThread_other hi]
      exact h.knows
  · have hhanded := h.earlier j loop hloop
    by_cases hj : j = i
    · subst hj
      rw [withThread_self]
      exact ⟨hgoes.published hhanded.1, hhanded.2.imp_right (And.imp_right hgoes.ended)⟩
    · rw [withThread_other hj]
      exact hhanded

omit [DecidableEq T] in
/-- The current thread is started. -/
theorem start_sound (h : s.Starting) (hstarter : s.starter = .testing) :
    ({ s.threads s.current with started := true, place := .born } :
      EventLoopThread F T).Sound (.thread s.current) := by
  have hs := h.sound s.current
  have hplace := h.knows
  rw [hstarter] at hplace
  refine ⟨hs.latched, hs.heeded, iff_of_true rfl ?_, ?_, (fun h => by cases h), ?_⟩
  · exact fun h => by cases h
  · rw [hs.count, show (s.threads s.current).place = .unborn from hplace]
    rfl
  · rw [hs.shared, isPublished, isPublished, show (s.threads s.current).place = .unborn from hplace]
    rfl

omit [DecidableEq T] in
/-- `start` takes the current thread's loop, or what is left of it. -/
theorem push (h : s.Starting) (hstarter : s.starter = .found) :
    ({ s with
      loops := s.loops ++ [(s.threads s.current).shared.guarded]
      starter := .testing } : StartingPool F T).Starting := by
  have hs := h.sound s.current
  have hknows := h.knows
  rw [hstarter] at hknows
  have hlength : (s.loops ++ [(s.threads s.current).shared.guarded]).length = s.current + 1 := by
    rw [List.length_append]
    rfl
  refine ⟨h.sound, fun i hi => h.later i ?_, ?_, ?_, fun i loop hloop => ?_⟩
  · have hi' : (s.loops ++ [(s.threads s.current).shared.guarded]).length < i := hi
    omega
  · exact hlength.trans_le hknows.1
  · show (s.threads (s.loops ++ [_]).length).place = .unborn
    rw [hlength]
    exact h.later _ (Nat.lt_succ_self _)
  · have hloop : (s.loops ++ [(s.threads s.current).shared.guarded])[i]? = some loop := hloop
    by_cases hi : i < s.loops.length
    · rw [List.getElem?_append_left hi] at hloop
      exact h.earlier i loop hloop
    · have hlast : i = s.current := by
        have hlt := (List.getElem?_eq_some_iff.1 hloop).1
        have hi' : ¬i < s.current := hi
        omega
      subst hlast
      obtain rfl : (s.threads s.current).shared.guarded = loop :=
        Option.some.inj (List.getElem?_concat_length.symm.trans hloop)
      refine ⟨hknows.2, ?_⟩
      have hwas := hknows.2
      rw [wasPublished, Bool.or_eq_true, decide_eq_true_iff] at hwas
      rw [hs.shared]
      cases hpublished : (s.threads s.current).isPublished with
      | true => exact .inl rfl
      | false =>
        rw [hpublished] at hwas
        exact .inr ⟨rfl, hwas.resolve_left Bool.false_ne_true⟩

/-- **Every step** keeps what `start` knows. -/
theorem step {op : StartOp F T} (h : s.Starting) (hstep : Stepped s op s') : s'.Starting := by
  have hs := h.sound s.current
  have hknows := h.knows
  cases hstep with
  | thread hgoes => exact h.thread hgoes
  | start hstarter hlt => exact h.here (h.start_sound hstarter) .latched ⟨hlt, fun h => by cases h⟩
  | finish hstarter hge =>
    rw [hstarter] at hknows
    exact ⟨h.sound, h.later, h.bounded, ⟨Nat.le_antisymm h.bounded hge, hknows⟩, h.earlier⟩
  | @latch b hstarter hwaiter hopen =>
    rw [hstarter] at hknows
    cases b with
    | true =>
      exact h.here (hs.setLatchWaiter (w := .outside) fun h => by cases h) .asserting
        ⟨hknows.1, hs.opened_iff.1 (hopen.1 rfl)⟩
    | false =>
      refine h.here (hs.setLatchWaiter (w := .blocked) fun _ hp => ?_) s.starter (hstarter ▸ hknows)
      exact Bool.false_ne_true (hopen.2 hp)
  | assertTid hstarter =>
    rw [hstarter] at hknows
    exact ⟨h.sound, h.later, h.bounded, hknows, h.earlier⟩
  | @wait b hstarter hwaiter hfound =>
    rw [hstarter] at hknows
    cases b with
    | true =>
      refine h.here (hs.setSharedWaiter (w := .outside) fun h => by cases h) .found ⟨hknows.1, ?_⟩
      have hpublished : (s.threads s.current).isPublished = true :=
        hs.published_iff.1 (hfound.1 rfl)
      rw [wasPublished, Bool.or_eq_true]
      exact .inl hpublished
    | false =>
      refine h.here (hs.setSharedWaiter (w := .blocked) fun _ hp => ?_) s.starter
        (hstarter ▸ hknows)
      exact Bool.false_ne_true (hfound.2 hp)
  | push hstarter => exact h.push hstarter
  | wakeLatch hstarter =>
    exact h.here (hs.setLatchWaiter (w := .woken) fun h => by cases h) s.starter hknows
  | wakeLoop hstarter =>
    exact h.here (hs.setSharedWaiter (w := .woken) fun h => by cases h) s.starter hknows

end Starting

/-! ## Any run -/

variable [DecidableEq T] {op : StartOp F T}

theorem Stepped.numThreads_eq (h : Stepped s op s') : s'.numThreads = s.numThreads := by
  cases h <;> rfl

omit [DecidableEq T] in
/-- The assertion of `Thread::start` holds. -/
theorem Starting.startThread_ok (h : s.Starting) (htesting : s.starter = .testing) :
    (startThread s).val = .ok () := by
  have hplace := h.knows
  rw [htesting] at hplace
  rw [startThread, Act.await_pos (p := fun s : StartingPool F T => s.starter = .testing) htesting,
    Act.get_bind]
  by_cases hlt : s.current < s.numThreads
  · have hnew : (s.threads s.current).started = false := by
      rw [← Bool.not_eq_true, (h.sound s.current).started]
      exact not_not.2 hplace
    have hstart : onThread s.current EventLoopThread.start s = ⟨.ok (), s.withThread s.current
        { s.threads s.current with started := true, place := .born }, []⟩ := by
      rw [onThread, EventLoopThread.start, Act.get_bind, Act.check_pos _ hnew]
      rfl
    rw [if_pos hlt, Act.bind_ok hstart]
    rfl
  · rw [if_neg hlt]
    rfl

omit [DecidableEq T] in
/-- `assert(tid_ > 0)` holds. -/
theorem Starting.assertTid_ok (h : s.Starting) (hasserting : s.starter = .asserting) :
    (assertTid s).val = .ok () := by
  have hknows := h.knows
  rw [hasserting] at hknows
  have hpos : 0 < (s.threads s.current).tid :=
    (h.sound s.current).numbered (ThreadPlace.isNumbered_of_isCounted hknows.2)
  rw [assertTid, Act.await_pos (p := fun s : StartingPool F T => s.starter = .asserting) hasserting,
    Act.get_bind, Act.check_pos _ hpos]
  rfl

omit [DecidableEq T] in
/-- A sequence whose first call does not fail, and the rest of which does not. -/
theorem bind_not_fails {α : Type} {x : StartAct F T α} {f : α → StartAct F T Unit} {fault : Abort}
    (hx : (x s).val ≠ .error (.fails fault))
    (hf : ∀ a s', (f a s').val ≠ .error (.fails fault)) :
    ((x >>= f) s).val ≠ .error (.fails fault) := by
  rcases hxs : x s with ⟨d | a, s', es⟩
  · rw [Act.bind_error hxs]
    rw [hxs] at hx
    exact fun heq => hx (congrArg Except.error (Except.error.inj heq))
  · rw [Act.bind_ok hxs]
    exact hf a s'

omit [DecidableEq T] in
/-- Waiting does not fail. -/
theorem waitLatch_not_fails (fault : Abort) : (waitLatch s).val ≠ .error (.fails fault) := by
  intro hfails
  have hx := (Act.await_fails hfails).2
  rw [Act.get_bind] at hx
  refine absurd hx (bind_not_fails ?_ fun b s' => ?_)
  · intro hwait
    exact Monitor.wait_not_fails (p := Latch.Opened) (ε := LoopEvent F) fault hwait
  · cases b <;> exact fun h => by cases h

omit [DecidableEq T] in
theorem waitLoop_not_fails (fault : Abort) : (waitLoop s).val ≠ .error (.fails fault) := by
  intro hfails
  have hx := (Act.await_fails hfails).2
  rw [Act.get_bind] at hx
  refine absurd hx (bind_not_fails ?_ fun b s' => ?_)
  · intro hwait
    exact Monitor.wait_not_fails (p := Published) (ε := LoopEvent F) fault hwait
  · cases b <;> exact fun h => by cases h

omit [DecidableEq T] in
theorem wakeStarter_not_fails (fault : Abort) : (wakeStarter s).val ≠ .error (.fails fault) := by
  rw [wakeStarter, Act.get_bind]
  cases s.starter with
  | latched =>
    exact Monitor.wakeUp_not_fails (ε := LoopEvent F) (m := (s.threads s.current).latch) fault
  | waiting =>
    exact Monitor.wakeUp_not_fails (ε := LoopEvent F) (m := (s.threads s.current).shared) fault
  | _ => exact fun h => by cases h

omit [DecidableEq T] in
theorem publish_not_fails {ptr : LoopPtr} (fault : Abort) :
    (publish ptr t).val ≠ .error (.fails fault) := by
  intro hfails
  have hx := (Act.await_fails hfails).2
  rw [(Act.bind_modify _ _ _).1] at hx
  have hpublish : (LoopThread.publish t.loop).val = .error (.fails fault) := hx
  exact Act.await_modify_not_fails _ fault hpublish

/-- **No assertion fails** while the pool starts. -/
theorem Starting.not_fails (h : s.Starting) (hinner : op.inner = none) (fault : Abort) :
    (op.exec s).val ≠ .error (.fails fault) := by
  cases op with
  | startThread =>
    intro hfails
    cases (h.startThread_ok (Act.await_fails hfails).1).symm.trans hfails
  | assertTid =>
    intro hfails
    cases (h.assertTid_ok (Act.await_fails hfails).1).symm.trans hfails
  | waitLatch => exact waitLatch_not_fails fault
  | waitLoop => exact waitLoop_not_fails fault
  | wakeStarter => exact wakeStarter_not_fails fault
  | inLoop i op => cases hinner
  | pushLoop =>
    intro hfails
    cases (Act.await_fails hfails).2
  | setTid | countDown | makeLoop | endLoop =>
    exact Act.await_modify_not_fails (ε := LoopEvent F) _ fault
  | publish i => exact publish_not_fails fault

/-! ## Where `start` gets to -/

omit [DecidableEq T] in
/-- A sequence whose first call returns, and the rest of which does. -/
theorem bind_returns {α : Type} {x : StartAct F T α} {f : α → StartAct F T Unit}
    (hx : ∃ a, (x s).val = .ok a) (hf : ∀ a s', (f a s').val = .ok ()) :
    ((x >>= f) s).val = .ok () := by
  obtain ⟨a, ha⟩ := hx
  have hxs : x s = ⟨.ok a, (x s).state, (x s).trace⟩ := by rw [← ha]
  rw [Act.bind_ok hxs]
  exact hf a _

omit [DecidableEq T] in
theorem waitLatch_ok (hlatched : s.starter = .latched)
    (hwaiter : (s.threads s.current).latch.waiter () ≠ .blocked) : (waitLatch s).val = .ok () := by
  rw [waitLatch, Act.await_pos (p := fun s : StartingPool F T => s.starter = .latched) hlatched,
    Act.get_bind]
  refine bind_returns ?_ fun b s' => by cases b <;> rfl
  exact Monitor.wait_returns (p := Latch.Opened) (φ := Abort) (ε := LoopEvent F) hwaiter

omit [DecidableEq T] in
theorem waitLoop_ok (hwaiting : s.starter = .waiting)
    (hwaiter : (s.threads s.current).shared.waiter () ≠ .blocked) : (waitLoop s).val = .ok () := by
  rw [waitLoop, Act.await_pos (p := fun s : StartingPool F T => s.starter = .waiting) hwaiting,
    Act.get_bind]
  refine bind_returns ?_ fun b s' => by cases b <;> rfl
  exact Monitor.wait_returns (p := Published) (φ := Abort) (ε := LoopEvent F) hwaiter

/-- A thread that has not counted yet goes on. -/
theorem Stuck.counted (hstuck : s.Stuck) (hborn : (s.threads i).place ≠ .unborn) :
    (s.threads i).place.isCounted = true := by
  cases hplace : (s.threads i).place with
  | unborn => exact absurd hplace hborn
  | born =>
    have hok : (setTid 1 (s.threads i)).val = .ok () := by
      rw [setTid, Act.await_pos ⟨hplace, Int.one_pos⟩]
      rfl
    exact not_waits hok (hstuck (.setTid i 1) rfl)
  | numbered =>
    have hok : (countDown (s.threads i)).val = .ok () := by
      rw [countDown, Act.await_pos (p := fun t : EventLoopThread F T => t.place = .numbered) hplace]
      rfl
    exact not_waits hok (hstuck (.countDown i) rfl)
  | _ => rfl

/-- The loop's own thread ends its calls of `quit` and `queueInLoop`. -/
theorem quitEnd_returns {loop : LoopThread F T} (h : loop.caller none = .stored) :
    (LoopThread.quitEnd none loop).val = .ok () := by
  have hin : LoopThread.InCall none .stored loop := h
  rw [LoopThread.quitEnd, Act.await_pos hin]
  rfl

theorem queueInLoopEnd_returns {loop : LoopThread F T} (h : loop.caller none = .appended)
    (hphase : loop.phase ≠ .returned) : (LoopThread.queueInLoopEnd none loop).val = .ok () := by
  have hin : LoopThread.InCall none .appended loop := h
  rw [LoopThread.queueInLoopEnd, Act.await_pos hin, Act.get_bind]
  cases loop.callingFunctors with
  | false => rfl
  | true =>
    have halive : LoopThread.checkAlive loop = ⟨.ok (), loop, []⟩ := by
      rw [LoopThread.checkAlive, Act.get_bind, Act.check_pos _ hphase]
      rfl
    have hwake : LoopThread.wakeup loop = ⟨.ok (), { loop with wakeupFd := loop.counted }, []⟩ :=
      wakeup_ok (by rw [LoopThread.wakeup, Act.bind_ok halive]; rfl)
    show ((LoopThread.wakeup >>= fun _ => LoopThread.setCaller none .idle) loop).val = _
    rw [Act.bind_ok hwake]
    rfl

/-- A loop that is in the initial callback is published. -/
theorem Stuck.not_callback (hstuck : s.Stuck) (hplace : (s.threads i).place = .inLoop) :
    (s.threads i).loop.phase ≠ .callback := by
  intro hphase
  have hinner : ∀ op : ThreadOp F T, op ≠ .publish → (StartOp.inLoop i op).isOwn = true →
      (op.exec (s.threads i).loop).val ≠ .ok () := by
    intro op hop hown hok
    have hexec : ((StartOp.inLoop i op).exec s).val = (op.exec (s.threads i).loop).val :=
      congrArg Outcome.val (inLoop_apply hplace hop)
    exact not_waits hok (hexec.symm.trans (hstuck _ hown))
  cases hcaller : (s.threads i).loop.caller none with
  | idle =>
    have hok : (publish (.thread i) (s.threads i)).val = .ok () := by
      rw [publish, Act.await_pos (p := fun t : EventLoopThread F T => t.place = .inLoop) hplace,
        (Act.bind_modify _ _ _).1]
      show (LoopThread.publish (s.threads i).loop).val = _
      rw [LoopThread.publish, Act.await_pos ⟨hphase, hcaller⟩]
      rfl
    exact not_waits hok (hstuck (.publish i) rfl)
  | appended =>
    have halive : (s.threads i).loop.phase ≠ .returned := by
      rw [hphase]
      exact fun h => by cases h
    exact hinner (.queueInLoopEnd none) (fun h => by cases h) rfl
      (queueInLoopEnd_returns hcaller halive)
  | stored => exact hinner (.quitEnd none) (fun h => by cases h) rfl (quitEnd_returns hcaller)

/-- **When every thread waits**, `start` has returned, or it waits for a loop that has ended. -/
theorem Starting.end_of_stuck (h : s.Starting) (hstuck : s.Stuck) :
    s.starter = .returned ∨ s.starter = .waiting ∧ (s.threads s.current).place = .ended := by
  have hs := h.sound s.current
  have hknows := h.knows
  cases hstarter : s.starter with
  | returned => exact .inl rfl
  | testing =>
    exact not_waits (h.startThread_ok hstarter) (hstuck .startThread rfl)
  | latched =>
    rw [hstarter] at hknows
    have hopen := hs.opened_iff.2 (hstuck.counted hknows.2)
    have hok := waitLatch_ok hstarter (hs.latched hopen ())
    exact not_waits hok (hstuck .waitLatch rfl)
  | asserting =>
    exact not_waits (h.assertTid_ok hstarter) (hstuck .assertTid rfl)
  | waiting =>
    refine .inr ⟨rfl, ?_⟩
    rw [hstarter] at hknows
    cases hplace : (s.threads s.current).place with
    | ended => rfl
    | counted =>
      have hok : (makeLoop (s.threads s.current)).val = .ok () := by
        rw [makeLoop,
          Act.await_pos (p := fun t : EventLoopThread F T => t.place = .counted) hplace]
        rfl
      exact not_waits hok (hstuck (.makeLoop s.current) rfl)
    | inLoop =>
      have hpublished : (s.threads s.current).isPublished = true := by
        rw [isPublished, hplace]
        exact decide_eq_true (hstuck.not_callback hplace)
      have hok := waitLoop_ok hstarter (hs.heeded (hs.published_iff.2 hpublished) ())
      exact not_waits hok (hstuck .waitLoop rfl)
    | unborn | born | numbered =>
      have hcounted := hknows.2
      rw [hplace] at hcounted
      cases hcounted
  | found =>
    have hwaits := hstuck .pushLoop rfl
    rw [StartOp.exec, pushLoop,
      Act.await_pos (p := fun s : StartingPool F T => s.starter = .found) hstarter] at hwaits
    cases hwaits

variable {n : ℕ} {calls : List (StartingCall F T)}
  {Guard : List (StartingCall F T) → StartingCall F T → Prop}

theorem run_starting (h : Run StartOp.exec Guard (init n) calls s) :
    s.Starting ∧ s.numThreads = n :=
  h.invariant (I := fun _ s => s.Starting ∧ s.numThreads = n) ⟨init_starting n, rfl⟩
    fun _ _ _ ⟨hs, hn⟩ _ hok => ⟨hs.step (stepped hok), (stepped hok).numThreads_eq.trans hn⟩

/-- **`start` hands out the loops of its threads**: in every order of the steps of the threads that
it starts and of those that call their loops, no assertion of `start`, `startLoop` or
`Thread::start` fails; what is in `loops_` is the loop of each thread, made and past its initial
callback, in order, or null for one that has ended; all are there when `start` has returned; and
`start` waits for ever only for a loop that has ended before `start` saw it. -/
theorem start_hands_out_loops (h : Run StartOp.exec (fun _ _ => True) (init n) calls s) :
    (∀ (op : StartOp F T) (fault : Abort), op.inner = none →
        (op.exec s).val ≠ .error (.fails fault)) ∧
      (∀ i loop, s.loops[i]? = some loop → (s.threads i).wasPublished = true ∧
        (loop = some (.thread i) ∨ loop = none ∧ (s.threads i).place = .ended)) ∧
      (s.starter = .returned → s.loops.length = n) ∧
      (s.Stuck → s.starter = .returned ∨
        s.starter = .waiting ∧ (s.threads s.loops.length).place = .ended) := by
  obtain ⟨hs, hn⟩ := run_starting h
  refine ⟨fun op fault hinner => hs.not_fails hinner fault, hs.earlier, fun hreturned => ?_,
    hs.end_of_stuck⟩
  have hknows := hs.knows
  rw [hreturned] at hknows
  exact hknows.1.trans hn

/-- Two threads; the first one's loop is stopped between the wait for it and `return loop_`. -/
theorem start_hands_out_loops_of_two :
    ∃ (calls : List (StartingCall ℕ ℕ)) (s : StartingPool ℕ ℕ),
      Run StartOp.exec (fun _ _ => True) (init 2) calls s ∧ s.loops = [none, some (.thread 1)] ∧
        s.starter = .returned ∧ s.loops.length = 2 ∧
        ∀ i loop, s.loops[i]? = some loop → (s.threads i).wasPublished = true ∧
          (loop = some (.thread i) ∨ loop = none ∧ (s.threads i).place = .ended) := by
  have hrun : Run (StartOp.exec (F := ℕ) (T := ℕ)) (fun _ _ => True) (init 2) _ _ :=
    run_replay [.startThread, .waitLatch, .setTid 0 7, .countDown 0, .waitLatch, .assertTid,
      .makeLoop 0, .waitLoop, .publish 0, .inLoop 0 .enter, .waitLoop,
      .inLoop 0 (.quitStore (some 3)), .inLoop 0 .test, .endLoop 0, .pushLoop, .startThread,
      .setTid 1 8, .countDown 1, .makeLoop 1, .waitLatch, .assertTid, .waitLoop, .wakeStarter,
      .waitLoop, .publish 1, .waitLoop, .pushLoop, .startThread] (by decide +kernel)
  obtain ⟨-, hloops, hall, -⟩ := start_hands_out_loops hrun
  exact ⟨_, _, hrun, by decide +kernel, by decide +kernel, hall (by decide +kernel), hloops⟩

end StartingPool

end Cannet.Net
