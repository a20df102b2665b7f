import Cannet.Base.ThreadSafeQueue

/-!
# What a step of the queue does

`Stepped s op es s'` lists the ways in which a step `op` is made from `s`: what must hold, what is
done (`es`) and where it leads (`s'`). `stepped` says that there is no other way, `failed` which
steps end the process, and `Stepped.owned` that no two consumers are in the critical section of
`headMutex_`.
-/

namespace Cannet.Base

open Foundations

variable {α κ : Type}

/-- The consumer is in the critical section of `headMutex_`. -/
def Consumer.holds : Consumer α → Bool
  | locked _ | gap _ | found _ | moved _ => true
  | idle | blocked _ | woken _ => false

namespace ThreadSafeQueue

variable [DecidableEq κ]

/-- The queue without the node `i`, which the consumer `c` has removed. -/
def removed (s : ThreadSafeQueue α κ) (c : κ) (i : ℕ) : ThreadSafeQueue α κ :=
  { s with
    heap := s.heap.set i ⟨s.val i, none⟩
    head := s.next i
    headMutex := none
    consumer := Function.update s.consumer c .idle }

inductive Stepped (s : ThreadSafeQueue α κ) :
    QueueOp α κ → List (QueueEvent α) → ThreadSafeQueue α κ → Prop
  | push (x : α) : Stepped s (.push x) [.pushed x] (s.pushed x)
  | notify {c : κ} {p : Pop} (hpos : 0 < s.notifies) (hc : s.consumer c = .blocked p) :
    Stepped s (.notifyOne (some c)) []
      { s with
        notifies := s.notifies - 1
        waiters := s.waiters.filter (· ≠ c)
        consumer := Function.update s.consumer c (.woken p) }
  | notifyNobody (hpos : 0 < s.notifies) (hnone : s.waiters = []) :
    Stepped s (.notifyOne none) [] { s with notifies := s.notifies - 1 }
  | lock {c : κ} {p : Pop} (hc : s.consumer c = .idle) (hfree : s.headMutex = none) :
    Stepped s (.lock c p) []
      { s with headMutex := some c, consumer := Function.update s.consumer c (.locked p) }
  | find {c : κ} {p : Pop} (hc : s.consumer c = .locked p) (hsome : s.head ≠ some s.tail) :
    Stepped s (.compare c) [] { s with consumer := Function.update s.consumer c (.found p) }
  | miss {c : κ} {p : Pop} (hc : s.consumer c = .locked p) (hempty : s.head = some s.tail)
    (hwaits : p.waits = true) :
    Stepped s (.compare c) [] { s with consumer := Function.update s.consumer c (.gap p) }
  | refuse {c : κ} {p : Pop} (hc : s.consumer c = .locked p) (hempty : s.head = some s.tail)
    (hwaits : p.waits = false) :
    Stepped s (.compare c) [.empty]
      { s with headMutex := none, consumer := Function.update s.consumer c .idle }
  | block {c : κ} {p : Pop} (hc : s.consumer c = .gap p) :
    Stepped s (.block c) []
      { s with
        headMutex := none
        waiters := s.waiters ++ [c]
        consumer := Function.update s.consumer c (.blocked p) }
  | wakeUp {c : κ} {p : Pop} (hc : s.consumer c = .blocked p) :
    Stepped s (.wakeUp c) []
      { s with
        waiters := s.waiters.filter (· ≠ c)
        consumer := Function.update s.consumer c (.woken p) }
  | relock {c : κ} {p : Pop} (hc : s.consumer c = .woken p) (hfree : s.headMutex = none) :
    Stepped s (.relock c) []
      { s with headMutex := some c, consumer := Function.update s.consumer c (.locked p) }
  | moveOut {c : κ} {p : Pop} {i : ℕ} {x : α} (hc : s.consumer c = .found p)
    (hhead : s.head = some i) (hx : s.val i = some x) :
    Stepped s (.moveOut c) [] { s with consumer := Function.update s.consumer c (.moved x) }
  | popMoved {c : κ} {i : ℕ} {x : α} (hc : s.consumer c = .moved x) (hhead : s.head = some i) :
    Stepped s (.popHead c) [.popped (some x)] (s.removed c i)
  | popFound {c : κ} {p : Pop} {i : ℕ} (hc : s.consumer c = .found p) (hhead : s.head = some i) :
    Stepped s (.popHead c) [.popped (s.val i)] (s.removed c i)

/-! ## There is no other way -/

variable {s : ThreadSafeQueue α κ} {c : κ}

theorem wakeUp_ok (h : (wakeUp c s).val = .ok ()) :
    ∃ p, s.consumer c = .blocked p ∧ wakeUp c s = ⟨.ok (), { s with
      waiters := s.waiters.filter (· ≠ c)
      consumer := Function.update s.consumer c (.woken p) }, []⟩ := by
  rw [wakeUp, Act.get_bind] at h ⊢
  cases hc : s.consumer c with
  | blocked p => exact ⟨p, rfl, rfl⟩
  | _ =>
    rw [hc] at h
    cases h

theorem notifyOne_stepped {woken : Option κ} (h : (notifyOne woken s).val = .ok ()) :
    Stepped s (.notifyOne woken) (notifyOne woken s).trace (notifyOne woken s).state := by
  obtain ⟨hnotify, hx⟩ := Act.await_ok h
  rw [notifyOne, Act.await_pos hnotify]
  cases woken with
  | none => exact .notifyNobody hnotify.1 hnotify.2
  | some c =>
    rw [Act.modify_bind] at hx ⊢
    obtain ⟨p, hc, heq⟩ := wakeUp_ok hx
    rw [wakeOne, heq]
    exact .notify hnotify.1 hc

theorem lock_stepped {p : Pop} (h : (lock c p s).val = .ok ()) :
    Stepped s (.lock c p) (lock c p s).trace (lock c p s).state := by
  rw [lock, Act.get_bind] at h ⊢
  cases hc : s.consumer c with
  | idle =>
    cases hfree : s.headMutex with
    | none => exact .lock hc hfree
    | some d =>
      rw [hc, hfree] at h
      cases h
  | _ =>
    rw [hc] at h
    cases h

theorem relock_stepped (h : (relock c s).val = .ok ()) :
    Stepped s (.relock c) (relock c s).trace (relock c s).state := by
  rw [relock, Act.get_bind] at h ⊢
  cases hc : s.consumer c with
  | woken p =>
    cases hfree : s.headMutex with
    | none => exact .relock hc hfree
    | some d =>
      rw [hc, hfree] at h
      cases h
  | _ =>
    rw [hc] at h
    cases h

theorem compare_stepped (h : (compare c s).val = .ok ()) :
    Stepped s (.compare c) (compare c s).trace (compare c s).state := by
  rw [compare, Act.get_bind] at h ⊢
  cases hc : s.consumer c with
  | locked p =>
    by_cases hempty : s.head = some s.tail
    · cases hwaits : p.waits with
      | true =>
        simp only [hempty, hwaits, if_true]
        exact .miss hc hempty hwaits
      | false =>
        simp only [hempty, hwaits, if_true, Bool.false_eq_true, if_false]
        exact .refuse hc hempty hwaits
    · simp only [hempty, if_false]
      exact .find hc hempty
  | _ =>
    rw [hc] at h
    cases h

theorem block_stepped (h : (block c s).val = .ok ()) :
    Stepped s (.block c) (block c s).trace (block c s).state := by
  rw [block, Act.get_bind] at h ⊢
  cases hc : s.consumer c with
  | gap p => exact .block hc
  | _ =>
    rw [hc] at h
    cases h

theorem moveOut_stepped (h : (moveOut c s).val = .ok ()) :
    Stepped s (.moveOut c) (moveOut c s).trace (moveOut c s).state := by
  rw [moveOut, Act.get_bind] at h ⊢
  match hc : s.consumer c with
  | .found ⟨waits, true⟩ =>
    cases hhead : s.head with
    | none =>
      rw [hc, hhead] at h
      cases h
    | some i =>
      cases hx : s.val i with
      | none =>
        rw [hc, hhead] at h
        simp [hx] at h
      | some x =>
        simp only [Act.need_some, Act.pure_bind, hx]
        exact .moveOut hc hhead hx
  | .found ⟨_, false⟩ | .idle | .locked _ | .gap _ | .blocked _ | .woken _ | .moved _ =>
    rw [hc] at h
    cases h

omit [DecidableEq κ] in
theorem removeHead_ok {i : ℕ} (hhead : s.head = some i) :
    removeHead s =
      ⟨.ok i, { s with heap := s.heap.set i ⟨s.val i, none⟩, head := s.next i }, []⟩ := by
  rw [removeHead, Act.get_bind, hhead]
  rfl

omit [DecidableEq κ] in
theorem removeHead_none (hhead : s.head = none) :
    removeHead s = ⟨.error (.fails .absentNode), s, []⟩ := by
  rw [removeHead, Act.get_bind, hhead]
  rfl

theorem popHead_stepped (h : (popHead c s).val = .ok ()) :
    Stepped s (.popHead c) (popHead c s).trace (popHead c s).state := by
  rw [popHead, Act.get_bind] at h ⊢
  match hc : s.consumer c with
  | .moved x =>
    rw [hc] at h
    cases hhead : s.head with
    | none =>
      dsimp only at h
      rw [Act.bind_error (removeHead_none hhead)] at h
      cases h
    | some i =>
      dsimp only
      rw [Act.bind_ok (removeHead_ok hhead)]
      exact .popMoved hc hhead
  | .found ⟨waits, false⟩ =>
    rw [hc] at h
    cases hhead : s.head with
    | none =>
      dsimp only at h
      rw [Act.bind_error (removeHead_none hhead)] at h
      cases h
    | some i =>
      dsimp only
      rw [Act.bind_ok (removeHead_ok hhead)]
      exact .popFound hc hhead
  | .found ⟨_, true⟩ | .idle | .locked _ | .gap _ | .blocked _ | .woken _ =>
    rw [hc] at h
    cases h

/-- **Every step is one of the listed ones.** -/
theorem stepped {op : QueueOp α κ} (h : (op.exec s).val = .ok ()) :
    Stepped s op (op.exec s).trace (op.exec s).state := by
  cases op with
  | push x => exact .push x
  | notifyOne woken => exact notifyOne_stepped h
  | lock c p => exact lock_stepped h
  | compare c => exact compare_stepped h
  | block c => exact block_stepped h
  | wakeUp c =>
    obtain ⟨p, hc, heq⟩ := wakeUp_ok h
    rw [QueueOp.exec, heq]
    exact .wakeUp hc
  | relock c => exact relock_stepped h
  | moveOut c => exact moveOut_stepped h
  | popHead c => exact popHead_stepped h

/-! ## Which steps fail -/

theorem wakeUp_not_fails (c : κ) (fault : QueueFault) :
    (wakeUp c s).val ≠ .error (.fails fault) := by
  rw [wakeUp, Act.get_bind]
  cases s.consumer c <;> nofun

theorem notifyOne_not_fails (woken : Option κ) (fault : QueueFault) :
    (notifyOne woken s).val ≠ .error (.fails fault) := by
  intro h
  obtain ⟨-, hx⟩ := Act.await_fails h
  rw [Act.modify_bind] at hx
  cases woken with
  | none => cases hx
  | some c => exact wakeUp_not_fails c fault hx

theorem lock_not_fails (c : κ) (p : Pop) (fault : QueueFault) :
    (lock c p s).val ≠ .error (.fails fault) := by
  rw [lock, Act.get_bind]
  cases s.consumer c <;> cases s.headMutex <;> nofun

theorem relock_not_fails (c : κ) (fault : QueueFault) :
    (relock c s).val ≠ .error (.fails fault) := by
  rw [relock, Act.get_bind]
  cases s.consumer c <;> cases s.headMutex <;> nofun

theorem compare_not_fails (c : κ) (fault : QueueFault) :
    (compare c s).val ≠ .error (.fails fault) := by
  rw [compare, Act.get_bind]
  cases s.consumer c with
  | locked p =>
    by_cases hempty : s.head = some s.tail
    · cases hwaits : p.waits with
      | true | false =>
        simp only [hempty, hwaits]
        nofun
    · simp only [hempty, if_false]
      nofun
  | _ => nofun

theorem block_not_fails (c : κ) (fault : QueueFault) :
    (block c s).val ≠ .error (.fails fault) := by
  rw [block, Act.get_bind]
  cases s.consumer c <;> nofun

theorem moveOut_failed {fault : QueueFault} (h : (moveOut c s).val = .error (.fails fault)) :
    s.head = none ∨ ∃ p i, s.consumer c = .found p ∧ s.head = some i ∧ s.val i = none := by
  rw [moveOut, Act.get_bind] at h
  match hc : s.consumer c with
  | .found ⟨waits, true⟩ =>
    cases hhead : s.head with
    | none => exact .inl rfl
    | some i =>
      cases hx : s.val i with
      | none => exact .inr ⟨_, i, rfl, rfl, hx⟩
      | some x =>
        rw [hc, hhead] at h
        simp only [Act.need_some, Act.pure_bind, hx] at h
        cases h
  | .found ⟨_, false⟩ | .idle | .locked _ | .gap _ | .blocked _ | .woken _ | .moved _ =>
    rw [hc] at h
    cases h

theorem popHead_failed {fault : QueueFault} (h : (popHead c s).val = .error (.fails fault)) :
    s.head = none := by
  rw [popHead, Act.get_bind] at h
  cases hhead : s.head with
  | none => rfl
  | some i =>
    match hc : s.consumer c with
    | .moved x | .found ⟨waits, false⟩ =>
      rw [hc] at h
      dsimp only at h
      rw [Act.bind_ok (removeHead_ok hhead)] at h
      cases h
    | .found ⟨_, true⟩ | .idle | .locked _ | .gap _ | .blocked _ | .woken _ =>
      rw [hc] at h
      cases h

/-- **A step fails only** where a pop finds no node, or no value in it. -/
theorem failed {op : QueueOp α κ} {fault : QueueFault}
    (h : (op.exec s).val = .error (.fails fault)) :
    s.head = none ∨ ∃ c p i, s.consumer c = .found p ∧ s.head = some i ∧ s.val i = none := by
  cases op with
  | push x => cases h
  | notifyOne woken => exact absurd h (notifyOne_not_fails woken fault)
  | lock c p => exact absurd h (lock_not_fails c p fault)
  | compare c => exact absurd h (compare_not_fails c fault)
  | block c => exact absurd h (block_not_fails c fault)
  | wakeUp c => exact absurd h (wakeUp_not_fails c fault)
  | relock c => exact absurd h (relock_not_fails c fault)
  | moveOut c => exact (moveOut_failed h).imp_right fun hfound => ⟨c, hfound⟩
  | popHead c => exact .inl (popHead_failed h)

/-! ## The mutex -/

/-- **`headMutex_` is held by at most one consumer.** -/
theorem Stepped.owned {s' : ThreadSafeQueue α κ} {op : QueueOp α κ} {es : List (QueueEvent α)}
    (hstep : Stepped s op es s') (h : Excludes s.headMutex s.consumer Consumer.holds) :
    Excludes s'.headMutex s'.consumer Consumer.holds := by
  cases hstep with
  | push | notifyNobody => exact h
  | lock hc hfree | relock hc hfree =>
    rw [hfree] at h
    exact h.enter rfl
  | refuse hc | block hc | popMoved hc | popFound hc => exact h.leave (by rw [hc]; rfl) rfl
  | notify hpos hc => exact h.move (by rw [hc]; rfl)
  | find hc | miss hc | wakeUp hc | moveOut hc => exact h.move (by rw [hc]; rfl)

end ThreadSafeQueue

end Cannet.Base
