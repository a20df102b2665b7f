import Cannet.Net.EventLoopThread
import Cannet.Net.Wakeup.Steps

/-!
# What a step does while a pool starts

`EventLoopThread.Goes` lists what one of the new threads does, `StartingPool.Stepped` what any
thread does, and `stepped` says that there is no other way. `Sound` is what a thread keeps by
itself: `count_` and `loop_` say how far it is, and nobody is blocked on either who need not be.
-/

namespace Cannet.Net

open Foundations Base

variable {F T : Type}

/-- `countDown` was called. -/
def ThreadPlace.isCounted : ThreadPlace → Bool
  | unborn | born | numbered => false
  | counted | inLoop | ended => true

/-- `*tid` was written. -/
def ThreadPlace.isNumbered : ThreadPlace → Bool
  | unborn | born => false
  | numbered | counted | inLoop | ended => true

theorem ThreadPlace.isNumbered_of_isCounted {place : ThreadPlace} (h : place.isCounted = true) :
    place.isNumbered = true := by
  cases place with
  | counted | inLoop | ended => rfl
  | _ => cases h

/-- Nothing but `publish` ends the initial callback, and nothing goes back to it. -/
theorem Stepped.callback [DecidableEq T] {op : ThreadOp F T} {es : List (LoopEvent F)}
    {loop loop' : LoopThread F T} (h : Stepped loop op es loop') (hop : op ≠ .publish) :
    loop'.phase = .callback ↔ loop.phase = .callback := by
  cases h with
  | publish => exact absurd rfl hop
  | append | appendByRun | wake | skip | callSelf | store | quitWake | quitSkip | handleRead =>
    exact Iff.rfl
  | enter hat | leave hat | wait hat | poll hat | handle hat | runFunctors hat | handlerEnd hat
  | swap hat | call hat | functorsEnd hat | functorEnd hat =>
    exact iff_of_false nofun (by rw [hat.1]; nofun)

/-- The step of a loop. -/
def StartOp.inner : StartOp F T → Option (ThreadOp F T)
  | inLoop _ op => some op
  | _ => none

namespace EventLoopThread

/-- `loop_` is not null. -/
def isPublished (t : EventLoopThread F T) : Bool :=
  t.place = .inLoop && t.loop.phase ≠ .callback

/-- `loop_` is or was not null. -/
def wasPublished (t : EventLoopThread F T) : Bool := t.isPublished || t.place = .ended

structure Sound (ptr : LoopPtr) (t : EventLoopThread F T) : Prop where
  latched : t.latch.Heeded Latch.Opened
  heeded : t.shared.Heeded Published
  started : t.started = true ↔ t.place ≠ .unborn
  count : t.latch.guarded = if t.place.isCounted then 0 else 1
  numbered : t.place.isNumbered = true → 0 < t.tid
  shared : t.shared.guarded = if t.isPublished then some ptr else none

theorem init_sound (ptr : LoopPtr) : (init : EventLoopThread F T).Sound ptr where
  latched := Monitor.init_heeded _
  heeded := Monitor.init_heeded _
  started := iff_of_false Bool.false_ne_true fun hne => hne rfl
  count := rfl
  numbered h := absurd h Bool.false_ne_true
  shared := rfl

variable {t t' : EventLoopThread F T} {ptr : LoopPtr}

theorem Sound.opened_iff (h : t.Sound ptr) :
    Latch.Opened t.latch.guarded ↔ t.place.isCounted = true := by
  rw [h.count, Latch.Opened]
  cases t.place.isCounted <;> decide

theorem Sound.published_iff (h : t.Sound ptr) :
    Published t.shared.guarded ↔ t.isPublished = true := by
  rw [h.shared, Published]
  cases t.isPublished with
  | true => exact iff_of_true nofun rfl
  | false => exact iff_of_false (fun hne => hne rfl) Bool.false_ne_true

/-- `start` waits on the latch, which it need not when it is open. -/
theorem Sound.setLatchWaiter {w : Waiter} (h : t.Sound ptr)
    (hw : w = .blocked → ¬Latch.Opened t.latch.guarded) :
    ({ t with latch := t.latch.setWaiter () w } : EventLoopThread F T).Sound ptr :=
  ⟨h.latched.setWaiter hw, h.heeded, h.started, h.count, h.numbered, h.shared⟩

/-- `start` waits for the loop, which it need not when it is published. -/
theorem Sound.setSharedWaiter {w : Waiter} (h : t.Sound ptr)
    (hw : w = .blocked → ¬Published t.shared.guarded) :
    ({ t with shared := t.shared.setWaiter () w } : EventLoopThread F T).Sound ptr :=
  ⟨h.latched, h.heeded.setWaiter hw, h.started, h.count, h.numbered, h.shared⟩

variable [DecidableEq T]

/-- What a thread of the pool does, and the step of its loop if it is one. -/
inductive Goes (ptr : LoopPtr) (t : EventLoopThread F T) :
    Option (ThreadOp F T) → EventLoopThread F T → Prop
  | setTid {tid : ℤ} (h : t.place = .born) (hpos : 0 < tid) :
    Goes ptr t none { t with tid := tid, place := .numbered }
  | countDown (h : t.place = .numbered) :
    Goes ptr t none { t with latch := t.latch.countDown, place := .counted }
  | makeLoop (h : t.place = .counted) : Goes ptr t none { t with loop := .start, place := .inLoop }
  | publish (h : t.place = .inLoop) (hat : LoopThread.At .callback t.loop) :
    Goes ptr t none { t with
      loop := { t.loop with phase := .published }
      shared := (t.shared.update fun _ => some ptr).notifyAll }
  | inLoop {inner : ThreadOp F T} {es : List (LoopEvent F)} {loop : LoopThread F T}
    (h : t.place = .inLoop) (hop : inner ≠ .publish) (hstep : Stepped t.loop inner es loop) :
    Goes ptr t (some inner) { t with loop := loop }
  | endLoop (h : t.place = .inLoop) (hreturned : t.loop.phase = .returned) :
    Goes ptr t none { t with shared := t.shared.update fun _ => none, place := .ended }

namespace Goes

variable {inner : Option (ThreadOp F T)}

/-- **A thread's step keeps what it keeps by itself.** -/
theorem sound (h : t.Goes ptr inner t') (hs : t.Sound ptr) : t'.Sound ptr := by
  cases h with
  | setTid hplace hpos =>
    refine ⟨hs.latched, hs.heeded, ?_, ?_, fun _ => hpos, ?_⟩
    · exact iff_of_true (hs.started.2 (by rw [hplace]; nofun)) nofun
    · rw [hs.count, hplace]
      rfl
    · rw [hs.shared, isPublished, isPublished, hplace]
      rfl
  | countDown hplace =>
    refine ⟨Latch.countDown_heeded hs.latched, hs.heeded, ?_, ?_, fun _ => ?_, ?_⟩
    · exact iff_of_true (hs.started.2 (by rw [hplace]; nofun)) nofun
    · rw [Latch.countDown_guarded, hs.count, hplace]
      rfl
    · exact hs.numbered (by rw [hplace]; rfl)
    · rw [hs.shared, isPublished, isPublished, hplace]
      rfl
  | makeLoop hplace =>
    refine ⟨hs.latched, hs.heeded, ?_, ?_, fun _ => ?_, ?_⟩
    · exact iff_of_true (hs.started.2 (by rw [hplace]; nofun)) nofun
    · rw [hs.count, hplace]
      rfl
    · exact hs.numbered (by rw [hplace]; rfl)
    · rw [hs.shared, isPublished, isPublished, hplace]
      rfl
  | publish hplace hat =>
    refine ⟨hs.latched, .notifyAll _, hs.started, hs.count, hs.numbered, ?_⟩
    rw [isPublished, hplace]
    rfl
  | inLoop hplace hop hstep =>
    refine ⟨hs.latched, hs.heeded, hs.started, hs.count, hs.numbered, ?_⟩
    rw [hs.shared, isPublished, isPublished]
    simp only [ne_eq, hstep.callback hop]
  | endLoop hplace hreturned =>
    refine ⟨hs.latched, hs.heeded.update fun hp => absurd rfl hp, ?_, ?_, fun _ => ?_, rfl⟩
    · exact iff_of_true (hs.started.2 (by rw [hplace]; nofun)) nofun
    · rw [hs.count, hplace]
      rfl
    · exact hs.numbered (by rw [hplace]; rfl)

/-- A thread makes no step before it is started. -/
theorem born (h : t.Goes ptr inner t') : t.place ≠ .unborn ∧ t'.place ≠ .unborn := by
  cases h with
  | setTid hplace | countDown hplace | makeLoop hplace | endLoop hplace =>
    exact ⟨by rw [hplace]; nofun, nofun⟩
  | publish hplace | inLoop hplace => exact ⟨by rw [hplace]; nofun, by rw [hplace]; nofun⟩

theorem counted (h : t.Goes ptr inner t') (hcounted : t.place.isCounted = true) :
    t'.place.isCounted = true := by
  cases h with
  | setTid hplace =>
    rw [hplace] at hcounted
    cases hcounted
  | countDown | makeLoop | endLoop => rfl
  | publish | inLoop => exact hcounted

theorem published (h : t.Goes ptr inner t') (hpublished : t.wasPublished = true) :
    t'.wasPublished = true := by
  cases h with
  | setTid hplace | countDown hplace | makeLoop hplace =>
    rw [wasPublished, isPublished, hplace] at hpublished
    cases hpublished
  | publish hplace =>
    rw [wasPublished, isPublished, hplace]
    rfl
  | inLoop hplace hop hstep =>
    rw [wasPublished, isPublished] at hpublished ⊢
    simpa only [ne_eq, hstep.callback hop] using hpublished
  | endLoop => rfl

theorem ended (h : t.Goes ptr inner t') (hended : t.place = .ended) : t'.place = .ended := by
  cases h with
  | endLoop => rfl
  | setTid hplace | countDown hplace | makeLoop hplace | publish hplace | inLoop hplace =>
    rw [hplace] at hended
    cases hended

end Goes

/-! ## There is no other way -/

theorem setTid_goes {tid : ℤ} (h : (setTid tid t).val = .ok ()) :
    t.Goes ptr none (setTid tid t).state := by
  obtain ⟨⟨hplace, hpos⟩, -⟩ := Act.await_ok h
  rw [setTid, Act.await_pos ⟨hplace, hpos⟩]
  exact .setTid hplace hpos

theorem countDown_goes (h : (countDown t).val = .ok ()) : t.Goes ptr none (countDown t).state := by
  have hplace := (Act.await_ok h).1
  rw [countDown, Act.await_pos (p := fun t : EventLoopThread F T => t.place = .numbered) hplace]
  exact .countDown hplace

theorem makeLoop_goes (h : (makeLoop t).val = .ok ()) : t.Goes ptr none (makeLoop t).state := by
  have hplace := (Act.await_ok h).1
  rw [makeLoop, Act.await_pos (p := fun t : EventLoopThread F T => t.place = .counted) hplace]
  exact .makeLoop hplace

theorem publish_goes (h : (publish ptr t).val = .ok ()) :
    t.Goes ptr none (publish ptr t).state := by
  obtain ⟨hplace, hx⟩ := Act.await_ok h
  rw [publish, Act.await_pos (p := fun t : EventLoopThread F T => t.place = .inLoop) hplace]
  obtain ⟨hval, hstate⟩ := Act.bind_modify (onLoop LoopThread.publish)
    (fun t : EventLoopThread F T =>
      { t with shared := (t.shared.update fun _ => some ptr).notifyAll }) t
  have hok : (LoopThread.publish t.loop).val = .ok () := hval.symm.trans hx
  have hat := (Act.await_ok hok).1
  rw [hstate hok, onLoop, Act.zoom, LoopThread.publish, Act.await_pos hat]
  exact .publish hplace hat

theorem inLoop_eq {op : ThreadOp F T} (hop : op ≠ .publish) :
    inLoop op t = Act.await (·.place = .inLoop) (onLoop op.exec) t := by
  cases op with
  | publish => exact absurd rfl hop
  | _ => rfl

/-- A step of the loop is made there. -/
theorem inLoop_apply {op : ThreadOp F T} (hplace : t.place = .inLoop) (hop : op ≠ .publish) :
    inLoop op t = onLoop op.exec t := by
  rw [inLoop_eq hop, Act.await_pos (p := fun t : EventLoopThread F T => t.place = .inLoop) hplace]

theorem inLoop_goes {op : ThreadOp F T} (h : (inLoop op t).val = .ok ()) :
    t.Goes ptr (some op) (inLoop op t).state := by
  by_cases hop : op = .publish
  · rw [hop] at h
    cases h
  · rw [inLoop_eq hop] at h
    obtain ⟨hplace, hx⟩ := Act.await_ok h
    rw [inLoop_apply hplace hop]
    exact .inLoop hplace hop (stepped op hx)

theorem endLoop_goes (h : (endLoop t).val = .ok ()) : t.Goes ptr none (endLoop t).state := by
  obtain ⟨⟨hplace, hreturned⟩, -⟩ := Act.await_ok h
  rw [endLoop, Act.await_pos ⟨hplace, hreturned⟩]
  exact .endLoop hplace hreturned

end EventLoopThread

namespace StartingPool

open EventLoopThread

variable [DecidableEq T] {s s' : StartingPool F T} {op : StartOp F T}

/-- The pool with one thread in another state. -/
def withThread (s : StartingPool F T) (i : ℕ) (t : EventLoopThread F T) : StartingPool F T :=
  { s with threads := Function.update s.threads i t }

/-- What the threads do while a pool starts. -/
inductive Stepped (s : StartingPool F T) : StartOp F T → StartingPool F T → Prop
  | thread {op : StartOp F T} {i : ℕ} {t : EventLoopThread F T}
    (h : (s.threads i).Goes (.thread i) op.inner t) : Stepped s op (s.withThread i t)
  | start (h : s.starter = .testing) (hlt : s.current < s.numThreads) :
    Stepped s .startThread
      { s.withThread s.current
          { s.threads s.current with started := true, place := .born } with starter := .latched }
  | finish (h : s.starter = .testing) (hge : s.numThreads ≤ s.current) :
    Stepped s .startThread { s with starter := .returned }
  | latch {b : Bool} (h : s.starter = .latched)
    (hwaiter : (s.threads s.current).latch.waiter () ≠ .blocked)
    (hopen : b = true ↔ Latch.Opened (s.threads s.current).latch.guarded) :
    Stepped s .waitLatch
      { s.withThread s.current
          { s.threads s.current with
            latch := (s.threads s.current).latch.setWaiter () (if b then .outside else .blocked) }
        with starter := if b then .asserting else s.starter }
  | assertTid (h : s.starter = .asserting) : Stepped s .assertTid { s with starter := .waiting }
  | wait {b : Bool} (h : s.starter = .waiting)
    (hwaiter : (s.threads s.current).shared.waiter () ≠ .blocked)
    (hfound : b = true ↔ Published (s.threads s.current).shared.guarded) :
    Stepped s .waitLoop
      { s.withThread s.current
          { s.threads s.current with
            shared := (s.threads s.current).shared.setWaiter () (if b then .outside else .blocked) }
        with starter := if b then .found else s.starter }
  | push (h : s.starter = .found) :
    Stepped s .pushLoop
      { s with
        loops := s.loops ++ [(s.threads s.current).shared.guarded]
        starter := .testing }
  | wakeLatch (h : s.starter = .latched) :
    Stepped s .wakeStarter
      (s.withThread s.current
        { s.threads s.current with latch := (s.threads s.current).latch.setWaiter () .woken })
  | wakeLoop (h : s.starter = .waiting) :
    Stepped s .wakeStarter
      (s.withThread s.current
        { s.threads s.current with shared := (s.threads s.current).shared.setWaiter () .woken })

/-! ## There is no other way -/

theorem startThread_stepped (h : (startThread s).val = .ok ()) :
    Stepped s .startThread (startThread s).state := by
  obtain ⟨htesting, hx⟩ := Act.await_ok h
  rw [startThread, Act.await_pos (p := fun s : StartingPool F T => s.starter = .testing) htesting,
    Act.get_bind] at *
  by_cases hlt : s.current < s.numThreads
  · rw [if_pos hlt] at hx ⊢
    by_cases hnew : (s.threads s.current).started = false
    · have hstart : onThread s.current EventLoopThread.start s = ⟨.ok (), s.withThread s.current
          { s.threads s.current with started := true, place := .born }, []⟩ := by
        rw [onThread, EventLoopThread.start, Act.get_bind, Act.check_pos _ hnew]
        rfl
      rw [Act.bind_ok hstart]
      exact .start htesting hlt
    · have hstart : (onThread s.current EventLoopThread.start s).val =
          .error (.fails .assertion) := by
        rw [onThread, EventLoopThread.start, Act.get_bind, Act.check_neg _ hnew]
        rfl
      obtain ⟨_, hok, -⟩ := Act.bind_returned hx
      rw [hok] at hstart
      cases hstart
  · rw [if_neg hlt]
    exact .finish htesting (Nat.not_lt.1 hlt)

theorem waitLatch_stepped (h : (waitLatch s).val = .ok ()) :
    Stepped s .waitLatch (waitLatch s).state := by
  obtain ⟨hlatched, hx⟩ := Act.await_ok h
  rw [waitLatch, Act.await_pos (p := fun s : StartingPool F T => s.starter = .latched) hlatched,
    Act.get_bind] at *
  obtain ⟨b, hok, -⟩ := Act.bind_returned hx
  have hwait : (Latch.wait () (s.threads s.current).latch :
      Outcome (Halt Abort) (LoopEvent F) _ _).val = .ok b := congrArg Outcome.val hok
  obtain ⟨hwaiter, hopen, heq⟩ := Monitor.wait_ok hwait
  have hexec : onThread s.current (onLatch (Latch.wait ())) s = ⟨.ok b, s.withThread s.current
      { s.threads s.current with
        latch := (s.threads s.current).latch.setWaiter () (if b then .outside else .blocked) },
      []⟩ := by
    rw [onThread, onLatch, Act.zoom, Latch.wait, heq]
    rfl
  rw [Act.bind_ok hexec]
  have hstep := Stepped.latch hlatched hwaiter hopen
  cases b with
  | true | false => exact hstep

theorem assertTid_stepped (h : (assertTid s).val = .ok ()) :
    Stepped s .assertTid (assertTid s).state := by
  obtain ⟨hasserting, hx⟩ := Act.await_ok h
  rw [assertTid, Act.await_pos (p := fun s : StartingPool F T => s.starter = .asserting) hasserting,
    Act.get_bind] at *
  obtain ⟨hpos, -⟩ := Act.check_bind_ok hx
  rw [Act.check_pos _ hpos]
  exact .assertTid hasserting

theorem waitLoop_stepped (h : (waitLoop s).val = .ok ()) :
    Stepped s .waitLoop (waitLoop s).state := by
  obtain ⟨hwaiting, hx⟩ := Act.await_ok h
  rw [waitLoop, Act.await_pos (p := fun s : StartingPool F T => s.starter = .waiting) hwaiting,
    Act.get_bind] at *
  obtain ⟨b, hok, -⟩ := Act.bind_returned hx
  have hwait : (Monitor.wait Published () (s.threads s.current).shared :
      Outcome (Halt Abort) (LoopEvent F) _ _).val = .ok b := congrArg Outcome.val hok
  obtain ⟨hwaiter, hfound, heq⟩ := Monitor.wait_ok hwait
  have hexec : onThread s.current (onShared (Monitor.wait Published ())) s =
      ⟨.ok b, s.withThread s.current
        { s.threads s.current with
          shared := (s.threads s.current).shared.setWaiter () (if b then .outside else .blocked) },
        []⟩ := by
    rw [onThread, onShared, Act.zoom, heq]
    rfl
  rw [Act.bind_ok hexec]
  have hstep := Stepped.wait hwaiting hwaiter hfound
  cases b with
  | true | false => exact hstep

theorem pushLoop_stepped (h : (pushLoop s).val = .ok ()) :
    Stepped s .pushLoop (pushLoop s).state := by
  have hfound := (Act.await_ok h).1
  rw [pushLoop, Act.await_pos (p := fun s : StartingPool F T => s.starter = .found) hfound]
  exact .push hfound

theorem wakeStarter_stepped (h : (wakeStarter s).val = .ok ()) :
    Stepped s .wakeStarter (wakeStarter s).state := by
  rw [wakeStarter, Act.get_bind] at h ⊢
  cases hstarter : s.starter with
  | latched =>
    rw [hstarter] at h
    obtain ⟨-, heq⟩ := Monitor.wakeUp_ok (φ := Abort) (ε := LoopEvent F)
      (m := (s.threads s.current).latch) h
    have hexec : onThread s.current (onLatch (Monitor.wakeUp ())) s = ⟨.ok (),
        s.withThread s.current
          { s.threads s.current with latch := (s.threads s.current).latch.setWaiter () .woken },
        []⟩ := by
      rw [onThread, onLatch, Act.zoom, heq]
      rfl
    dsimp only
    rw [hexec]
    exact .wakeLatch hstarter
  | waiting =>
    rw [hstarter] at h
    obtain ⟨-, heq⟩ := Monitor.wakeUp_ok (φ := Abort) (ε := LoopEvent F)
      (m := (s.threads s.current).shared) h
    have hexec : onThread s.current (onShared (Monitor.wakeUp ())) s = ⟨.ok (),
        s.withThread s.current
          { s.threads s.current with shared := (s.threads s.current).shared.setWaiter () .woken },
        []⟩ := by
      rw [onThread, onShared, Act.zoom, heq]
      rfl
    dsimp only
    rw [hexec]
    exact .wakeLoop hstarter
  | _ =>
    rw [hstarter] at h
    cases h

/-- **Every step is one of the listed ones.** -/
theorem stepped (h : (op.exec s).val = .ok ()) : Stepped s op (op.exec s).state := by
  cases op with
  | startThread => exact startThread_stepped h
  | waitLatch => exact waitLatch_stepped h
  | assertTid => exact assertTid_stepped h
  | waitLoop => exact waitLoop_stepped h
  | pushLoop => exact pushLoop_stepped h
  | wakeStarter => exact wakeStarter_stepped h
  | setTid => exact .thread (setTid_goes h)
  | countDown => exact .thread (countDown_goes h)
  | makeLoop => exact .thread (makeLoop_goes h)
  | publish => exact .thread (publish_goes h)
  | inLoop => exact .thread (inLoop_goes h)
  | endLoop => exact .thread (endLoop_goes h)

end StartingPool

end Cannet.Net
