import Cannet.Base.ThreadSafeQueue.Steps
import Mathlib.Data.Fintype.Basic

/-!
# Notifications

A push changes `tail_` without `headMutex_`, and notifies after that. A consumer that has found the
queue empty and is about to block does not hear the notification, and blocks although the queue is
not empty any more. Nobody is the worse for it while another consumer is awake, for that one does
not block before it has found the queue empty itself: `Heard` is kept by every step but one, the
last notification still to do, made while the only consumer is in that gap (`Unheard`).
-/

namespace Cannet.Base

open Foundations

variable {α κ : Type}

namespace Consumer

/-- The consumer has found the queue empty and has not blocked yet. -/
def inGap : Consumer α → Bool
  | gap _ => true
  | _ => false

def isBlocked : Consumer α → Bool
  | blocked _ => true
  | _ => false

/-- The consumer compares `head_` with `tail_` again before it blocks. -/
def awake (c : Consumer α) : Bool := !c.inGap && !c.isBlocked

theorem holds_of_inGap {c : Consumer α} (h : c.inGap = true) : c.holds = true := by
  cases c with
  | gap p => rfl
  | _ => cases h

end Consumer

namespace ThreadSafeQueue

/-- Every consumer is blocked on `cv_`, the queue is not empty, and no push has its notification
still to do. -/
def LostWakeup (s : ThreadSafeQueue α κ) : Prop :=
  (Nonempty κ ∧ ∀ c, (s.consumer c).isBlocked = true) ∧ s.head ≠ some s.tail ∧ s.notifies = 0

/-- If the queue is not empty, a notification is still to do or a consumer is awake. -/
structure Heard (s : ThreadSafeQueue α κ) : Prop where
  owned : Excludes s.headMutex s.consumer Consumer.holds
  waiting : ∀ c, (s.consumer c).isBlocked = true → c ∈ s.waiters
  heard : s.head ≠ some s.tail →
    0 < s.notifies ∨ IsEmpty κ ∨ ∃ c, (s.consumer c).awake = true

theorem init_heard : Heard (init : ThreadSafeQueue α κ) where
  owned _ := iff_of_false Bool.false_ne_true nofun
  waiting _ hc := absurd hc Bool.false_ne_true
  heard hsome := absurd rfl hsome

theorem Heard.not_lostWakeup {s : ThreadSafeQueue α κ} (h : Heard s) : ¬s.LostWakeup := by
  rintro ⟨⟨hsome, hblocked⟩, hhead, hnotifies⟩
  rcases h.heard hhead with hpos | hempty | ⟨c, hc⟩
  · omega
  · exact not_isEmpty_iff.2 hsome hempty
  · rw [Consumer.awake, hblocked c, Bool.not_true, Bool.and_false] at hc
    cases hc

end ThreadSafeQueue

/-! ## The notification that nobody hears -/

/-- The last notification still to do is made while the queue is not empty and the only consumer
is about to block. -/
def Unheard (call : QueueCall α κ) : Prop :=
  (match call.input with
    | .notifyOne _ => call.before.notifies = 1
    | _ => False) ∧
  call.before.head ≠ some call.before.tail ∧
  ∃ c, (∀ d, d = c) ∧ (call.before.consumer c).inGap = true

instance [DecidableEq κ] [Fintype κ] : DecidablePred (Unheard (α := α) (κ := κ))
  | ⟨.notifyOne _, _, _⟩ => inferInstanceAs (Decidable (_ ∧ _ ∧ _))
  | ⟨.push _, _, _⟩ | ⟨.lock _ _, _, _⟩ | ⟨.compare _, _, _⟩ | ⟨.block _, _, _⟩
  | ⟨.wakeUp _, _, _⟩ | ⟨.relock _, _, _⟩ | ⟨.moveOut _, _, _⟩ | ⟨.popHead _, _, _⟩ =>
    isFalse fun h => h.1

namespace ThreadSafeQueue

namespace Heard

variable [DecidableEq κ] {s s' : ThreadSafeQueue α κ} {c : κ} {state : Consumer α}

/-- A consumer that does not block leaves the others where they are. -/
theorem waiting_update (h : Heard s) (hstate : state.isBlocked = false) {d : κ}
    (hd : (Function.update s.consumer c state d).isBlocked = true) : d ≠ c ∧ d ∈ s.waiters := by
  by_cases hdc : d = c
  · rw [hdc, Function.update_self, hstate] at hd
    cases hd
  · rw [Function.update_of_ne hdc] at hd
    exact ⟨hdc, h.waiting d hd⟩

/-- A consumer that is awake after the step is the one that is needed. -/
theorem awake_update (hstate : state.awake = true) :
    ∃ d, (Function.update s.consumer c state d).awake = true := by
  refine ⟨c, ?_⟩
  rw [Function.update_self]
  exact hstate

omit [DecidableEq κ] in
/-- **A notification is heard**, unless the only consumer is about to block. -/
theorem heard_of_nobody (h : Heard s) (hnone : s.waiters = [])
    (hgap : ¬∃ c, (∀ d, d = c) ∧ (s.consumer c).inGap = true) :
    IsEmpty κ ∨ ∃ c, (s.consumer c).awake = true := by
  by_contra hall
  obtain ⟨hsome, hawake⟩ := not_or.1 hall
  have hin : ∀ d, (s.consumer d).inGap = true := by
    intro d
    have hblocked : (s.consumer d).isBlocked = false := by
      rw [← Bool.not_eq_true]
      intro hd
      have hmem := h.waiting d hd
      rw [hnone] at hmem
      cases hmem
    have hd := not_exists.1 hawake d
    rwa [Consumer.awake, hblocked, Bool.not_false, Bool.and_true, Bool.not_eq_true',
      Bool.not_eq_false] at hd
  obtain ⟨c⟩ := not_isEmpty_iff.1 hsome
  refine hgap ⟨c, fun d => ?_, hin c⟩
  exact h.owned.unique (Consumer.holds_of_inGap (hin d)) (Consumer.holds_of_inGap (hin c))

/-- **Every step but an unheard notification** keeps `Heard`. -/
theorem step {op : QueueOp α κ} {es : List (QueueEvent α)} (h : Heard s)
    (hstep : Stepped s op es s')
    (hheard : ∀ woken, op = .notifyOne woken → s.notifies = 1 → s.head ≠ some s.tail →
      ¬∃ c, (∀ d, d = c) ∧ (s.consumer c).inGap = true) : Heard s' := by
  have howned := hstep.owned h.owned
  cases hstep with
  | push x => exact ⟨howned, h.waiting, fun _ => .inl (Nat.succ_pos _)⟩
  | notify hpos hc | wakeUp hc =>
    refine ⟨howned, fun d hd => ?_, fun _ => .inr (.inr (awake_update rfl))⟩
    obtain ⟨hdc, hmem⟩ := h.waiting_update rfl hd
    exact List.mem_filter.2 ⟨hmem, decide_eq_true hdc⟩
  | notifyNobody hpos hnone =>
    refine ⟨howned, h.waiting, fun hsome => ?_⟩
    by_cases hlast : s.notifies = 1
    · exact .inr (h.heard_of_nobody hnone (hheard none rfl hlast hsome))
    · exact .inl (show 0 < s.notifies - 1 by omega)
  | lock | find | refuse | relock | moveOut | popMoved | popFound =>
    exact ⟨howned, fun d hd => (h.waiting_update rfl hd).2,
      fun _ => .inr (.inr (awake_update rfl))⟩
  | miss hc hempty hwaits =>
    exact ⟨howned, fun d hd => (h.waiting_update rfl hd).2, fun hsome => absurd hempty hsome⟩
  | @block c p hc =>
    refine ⟨howned, fun d hd => ?_, fun hsome => ?_⟩
    · by_cases hdc : d = c
      · exact List.mem_append_right _ (List.mem_singleton.2 hdc)
      · dsimp only at hd
        rw [Function.update_of_ne hdc] at hd
        exact List.mem_append_left _ (h.waiting d hd)
    · refine (h.heard hsome).imp_right (Or.imp_right fun ⟨d, hd⟩ => ⟨d, ?_⟩)
      -- the consumer that blocks was in the gap, so it is not the one that is awake
      have hdc : d ≠ c := by
        rintro rfl
        rw [hc] at hd
        cases hd
      dsimp only
      rwa [Function.update_of_ne hdc]

end Heard

/-! ## Runs -/

variable [DecidableEq κ] {calls : List (QueueCall α κ)} {s : ThreadSafeQueue α κ}

theorem run_heard (h : Run QueueOp.exec (fun _ call => ¬Unheard call) init calls s) : Heard s := by
  refine h.invariant (I := fun _ s => Heard s) init_heard fun _ s op hheard hguard hok => ?_
  refine hheard.step (stepped hok) fun woken hop hlast hsome hgap => hguard ?_
  subst hop
  exact ⟨hlast, hsome, hgap⟩

/-- After a notification that nobody hears, the only consumer blocks for good. -/
theorem lostWakeup_of_unheard {op : QueueOp α κ} (hok : (op.exec s).val = .ok ())
    (h : Unheard (Call.make QueueOp.exec op s)) :
    ∃ c, (block c (op.exec s).state).val = .ok () ∧
      (block c (op.exec s).state).state.LostWakeup := by
  obtain ⟨hop, hsome, c, honly, hgap⟩ := h
  obtain ⟨p, hc⟩ : ∃ p, s.consumer c = .gap p := by
    rw [Call.make_before] at hgap
    cases hc : s.consumer c with
    | gap p => exact ⟨p, rfl⟩
    | _ =>
      rw [hc] at hgap
      cases hgap
  have hstep := stepped hok
  generalize (op.exec s).trace = es at hstep
  generalize (op.exec s).state = s' at hstep ⊢
  cases hstep with
  | @notify d _ hpos hd =>
    rw [honly d, hc] at hd
    cases hd
  | notifyNobody hpos hnone =>
    refine ⟨c, ?_⟩
    rw [block, Act.get_bind]
    dsimp only
    rw [hc]
    have hlast : s.notifies = 1 := hop
    refine ⟨rfl, ⟨⟨c⟩, fun d => ?_⟩, hsome, show s.notifies - 1 = 0 by rw [hlast]⟩
    change (Function.update s.consumer c (.blocked p) d).isBlocked = true
    rw [honly d, Function.update_self]
    rfl
  | _ => exact absurd hop not_false

/-- **A wakeup is lost with the first notification that nobody hears**, and not before: no run
without one leads to a queue with a value in it and every consumer blocked; after one, the only
consumer has to do no more than block. -/
theorem no_lost_wakeup (h : Run QueueOp.exec (fun _ call => ¬Unheard call) init calls s) :
    ¬s.LostWakeup ∧
      ∀ op : QueueOp α κ, (op.exec s).val = .ok () → Unheard (Call.make QueueOp.exec op s) →
        ∃ c, (block c (op.exec s).state).val = .ok () ∧
          (block c (op.exec s).state).state.LostWakeup :=
  ⟨(run_heard h).not_lostWakeup, fun _ => lostWakeup_of_unheard⟩

/-- The only consumer finds the queue empty, and a value is pushed before it blocks. -/
theorem no_lost_wakeup_of_push :
    ∃ (calls : List (QueueCall ℕ Unit)) (s : ThreadSafeQueue ℕ Unit),
      Run QueueOp.exec (fun _ call => ¬Unheard call) init calls s ∧ ¬s.LostWakeup ∧
        ∃ c, (block c (notifyOne none s).state).val = .ok () ∧
          (block c (notifyOne none s).state).state.LostWakeup := by
  have hrun : Run (QueueOp.exec (α := ℕ) (κ := Unit)) (fun _ call => ¬Unheard call) init _ _ :=
    run_replay [.lock () ⟨true, true⟩, .compare (), .push 3] (by decide +kernel)
  have hnotify := (no_lost_wakeup hrun).2 (.notifyOne none) (by decide +kernel) (by decide +kernel)
  exact ⟨_, _, hrun, (no_lost_wakeup hrun).1, hnotify⟩

/-- **A wakeup can be lost**: the push and its notification come between the predicate and the
block. -/
theorem push_in_gap_lost :
    ∃ (calls : List (QueueCall ℕ Unit)) (s : ThreadSafeQueue ℕ Unit),
      Run QueueOp.exec (fun _ _ => True) init calls s ∧ s.LostWakeup := by
  have hrun : Run (QueueOp.exec (α := ℕ) (κ := Unit)) (fun _ _ => True) init _ _ :=
    run_replay [.lock () ⟨true, true⟩, .compare (), .push 3, .notifyOne none, .block ()]
      (by decide +kernel)
  exact ⟨_, _, hrun, ⟨⟨()⟩, by decide +kernel⟩, by decide +kernel, by decide +kernel⟩

end ThreadSafeQueue

end Cannet.Base
