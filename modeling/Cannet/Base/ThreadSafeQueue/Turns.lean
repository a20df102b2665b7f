import Cannet.Base.ThreadSafeQueue.Fifo

/-!
# The consumers' turns

A step of the queue moves at most one consumer, its `actor`, and a consumer keeps to the function
that it has called. The steps that consumers make in their calls cannot go on for ever: each of them
makes `ThreadSafeQueue.weight` smaller, in which a notification still to do counts for more than the
way of the consumer that it wakes. A consumer that holds `headMutex_` in `waitAndPop(x)` never
waits.
-/

namespace Cannet.Base

open Foundations

variable {α κ : Type}

/-- The consumer that a step moves. -/
def QueueOp.actor : QueueOp α κ → Option κ
  | push _ => none
  | notifyOne woken => woken
  | lock c _ | compare c | block c | wakeUp c | relock c | moveOut c | popHead c => some c

/-- The step is the start of a call. -/
def QueueOp.locks : QueueOp α κ → Bool
  | lock _ _ => true
  | _ => false

/-- The step is one that a consumer makes in its call, or the end of a push: not the start of a
push, a spurious wakeup or the end of a call. -/
def QueueOp.inCall : QueueOp α κ → Bool
  | push _ | wakeUp _ | popHead _ => false
  | _ => true

namespace Consumer

/-- The function that the consumer has called is `p`, where that still makes a difference. -/
def Calls (p : Pop) : Consumer α → Prop
  | locked q | gap q | blocked q | woken q | found q => q = p
  | idle | moved _ => True

def weight : Consumer α → ℕ
  | idle | woken _ => 6
  | locked _ => 5
  | gap _ | found _ => 4
  | blocked _ | moved _ => 3

end Consumer

namespace ThreadSafeQueue

variable [DecidableEq κ] {s s' : ThreadSafeQueue α κ} {op : QueueOp α κ}
  {es : List (QueueEvent α)} {c d : κ} {p : Pop}

/-- The other consumers stay where they are. -/
theorem Stepped.frame (h : Stepped s op es s') (hd : op.actor ≠ some d) :
    s'.consumer d = s.consumer d := by
  cases h with
  | push | notifyNobody => rfl
  | _ => exact Function.update_of_ne (fun heq => hd (congrArg some heq.symm)) _ _

/-- A consumer that is in no call starts none but by taking `headMutex_`. -/
theorem Stepped.idle (h : Stepped s op es s') (hlocks : op.locks = false)
    (hidle : s.consumer d = .idle) : s'.consumer d = .idle := by
  by_cases hd : op.actor = some d
  · cases h with
    | push | notifyNobody => exact hidle
    | lock => cases hlocks
    | notify hpos hc | find hc | miss hc | refuse hc | block hc | wakeUp hc | relock hc
    | moveOut hc | popMoved hc | popFound hc =>
      obtain rfl := Option.some.inj hd
      exact absurd (hidle.symm.trans hc) nofun
  · rw [h.frame hd, hidle]

/-- A consumer keeps to the function that it has called. -/
theorem Stepped.calls (h : Stepped s op es s') (hlocks : op.locks = false)
    (hcalls : (s.consumer d).Calls p) : (s'.consumer d).Calls p := by
  by_cases hd : op.actor = some d
  · cases h with
    | push | notifyNobody => exact hcalls
    | lock => cases hlocks
    | notify hpos hc | find hc | miss hc | block hc | wakeUp hc | relock hc =>
      obtain rfl := Option.some.inj hd
      rw [hc] at hcalls
      simp only [Function.update_self]
      exact hcalls
    | refuse | moveOut | popMoved | popFound =>
      obtain rfl := Option.some.inj hd
      simp only [removed, Function.update_self]
      trivial
  · rwa [h.frame hd]

theorem Stepped.locked_of_lock (h : Stepped s (.lock c p) es s') :
    s'.consumer c = .locked p := by
  cases h with
  | lock => exact Function.update_self _ _ _

theorem Stepped.idle_of_popHead (h : Stepped s (.popHead c) es s') : s'.consumer c = .idle := by
  cases h with
  | popMoved | popFound => exact Function.update_self _ _ _

/-! ## Only so many steps -/

section Weight

variable [Fintype κ]

def weight (s : ThreadSafeQueue α κ) : ℕ := ∑ c, (s.consumer c).weight + 4 * s.notifies

/-- What one consumer loses or gains, the queue does. -/
theorem weight_of_update {b b' : Consumer α} {n : ℕ} (hc : s.consumer c = b)
    (hs' : s'.consumer = Function.update s.consumer c b')
    (hless : b'.weight + 4 * s'.notifies < b.weight + 4 * s.notifies + n) :
    s'.weight < s.weight + n := by
  have hsum := sum_weight_update Consumer.weight s.consumer c b'
  rw [hc] at hsum
  rw [weight, weight, hs']
  omega

/-- **The weight goes down** with every step in a call that waits, and with a notification. -/
theorem Stepped.weight_lt (h : Stepped s op es s') (hop : op.inCall = true)
    (hwaits : ∀ c p, op = .compare c → s.consumer c = .locked p → p.waits = true) :
    s'.weight < s.weight := by
  cases h with
  | push | wakeUp | popMoved | popFound => cases hop
  | refuse hc hempty hno => exact absurd (hwaits _ _ rfl hc) (Bool.eq_false_iff.1 hno)
  | notifyNobody hpos => exact Nat.add_lt_add_left (by dsimp only; omega) _
  | notify hpos hc =>
    refine weight_of_update (n := 0) hc rfl ?_
    simp only [Consumer.weight]
    omega
  | lock hc | find hc | miss hc | block hc | relock hc | moveOut hc =>
    refine weight_of_update (n := 0) hc rfl ?_
    simp only [Consumer.weight]
    omega

/-- The end of a call makes up for it by what the consumer was to do. -/
theorem Stepped.weight_popHead (h : Stepped s (.popHead c) es s') : s'.weight < s.weight + 4 := by
  cases h with
  | popMoved hc | popFound hc =>
    refine weight_of_update hc rfl ?_
    simp only [Consumer.weight, removed]
    omega

end Weight

/-! ## The critical section -/

/-- **A consumer that holds `headMutex_` goes on.** -/
theorem Fifo.holder_goesOn {nodes : List ℕ} {vals : List α} (h : Fifo es s nodes vals)
    (hc : (s.consumer c).holds = true) (hcalls : (s.consumer c).Calls ⟨true, true⟩) :
    (compare c s).val = .ok () ∨ (block c s).val = .ok () ∨ (moveOut c s).val = .ok () ∨
      ∃ x, s.consumer c = .moved x ∧ (popHead c s).val = .ok () := by
  match hplace : s.consumer c with
  | .locked p =>
    refine .inl ?_
    rw [hplace] at hcalls
    rw [compare, Act.get_bind, hplace, show p = ⟨true, true⟩ from hcalls]
    dsimp only
    rw [Act.ite_apply]
    split <;> rfl
  | .gap p =>
    refine .inr (.inl ?_)
    rw [block, Act.get_bind, hplace]
    rfl
  | .found p =>
    refine .inr (.inr (.inl ?_))
    obtain ⟨x, hx⟩ := h.first_of_found hplace
    obtain ⟨i, rest, -, hhead, hval⟩ := h.chain.first hx
    rw [hplace] at hcalls
    rw [moveOut, Act.get_bind, hplace, show p = ⟨true, true⟩ from hcalls]
    dsimp only
    rw [hhead, Act.need_some, Act.pure_bind, show s.val i = some x from hval]
    rfl
  | .moved x =>
    refine .inr (.inr (.inr ⟨x, rfl, ?_⟩))
    obtain ⟨i, hhead, -⟩ := h.chain.linked
    rw [popHead, Act.get_bind, hplace]
    dsimp only
    rw [Act.bind_ok (removeHead_ok hhead)]
    rfl
  | .idle | .blocked _ | .woken _ =>
    rw [hplace] at hc
    cases hc

end ThreadSafeQueue

end Cannet.Base
