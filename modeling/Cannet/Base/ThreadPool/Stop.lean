import Cannet.Base.ThreadPool.Steps
import Cannet.Base.ThreadSafeQueue.Notify
import Mathlib.Data.Fintype.Option

/-!
# `stop()` does not return

`notify_all` has `headMutex_` when it calls `empty`, which takes it: `stop()` waits for itself, and
`cv_.notify_all()` is never reached. Whatever the threads have done, they can go on until each of
them waits, for once `running_` is false their steps make `ThreadPool.weight` smaller; the thread
that calls `stop()` is in `empty` then (`stop_never_returns`). The workers that are blocked stay so.
-/

namespace Cannet.Base

open Foundations ThreadPool

variable {τ κ : Type}

/-- A worker that waits is to come back to its test, with `running_` false. -/
def Worker.weight : Worker τ → ℕ
  | returned => 0
  | testing => 1
  | starting | popped _ => 2
  | waiting => 6

theorem Worker.Goes.weight_lt {w w' : Worker τ} (h : Worker.Goes false w w') :
    w'.weight < w.weight := by
  cases h with
  | go hrunning => cases hrunning
  | initCallback | leave | runTask => simp [Worker.weight]

namespace PoolOp

variable {op : PoolOp τ κ} {qop : QueueOp τ (Option κ)}

theorem queueOp_inCall (h : op.queueOp = some qop) (hown : op.isOwn = true) :
    qop.inCall = true := by
  cases op with
  | addTask => cases hown
  | notifyOne =>
    obtain rfl := Option.some.inj h
    rfl
  | wait k step =>
    obtain rfl := Option.some.inj h
    cases step with
    | wakeUp => cases hown
    | _ => rfl
  | _ => cases h

theorem queueOp_compare {c : Option κ} (h : op.queueOp = some (.compare c)) : ∃ k, c = some k := by
  cases op with
  | wait k step =>
    cases step with
    | compare => exact ⟨k, (QueueOp.compare.inj (Option.some.inj h)).symm⟩
    | _ => cases h
  | _ => cases h

end PoolOp

namespace ThreadPool

variable [DecidableEq κ] {s s' : ThreadPool τ κ} {op : PoolOp τ κ} {k : κ}

/-! ## Only so many steps -/

theorem Stepped.running (h : Stepped s op s') (hrunning : s.running = false) :
    s'.running = false := by
  cases h with
  | store => rfl
  | _ => exact hrunning

section Weight

variable [Fintype κ]

def weight (s : ThreadPool τ κ) : ℕ := ∑ k, (s.worker k).weight + s.taskQueue.weight

/-- **The weight goes down** with every step of the threads when `running_` is false. -/
theorem Stepped.weight_lt (h : Stepped s op s') (hc : Coherent s) (hrunning : s.running = false)
    (hown : op.isOwn = true) : s'.weight < s.weight := by
  cases h with
  | queue hop hq =>
    refine Nat.add_lt_add_left (hq.weight_lt (op.queueOp_inCall hop hown) ?_) _
    intro c p heq hplace
    obtain ⟨k, rfl⟩ := op.queueOp_compare (heq ▸ hop)
    obtain ⟨-, hcalls⟩ := hc.waiting (k := k) (by rw [hplace]; nofun)
    rw [hplace] at hcalls
    exact congrArg Pop.waits hcalls
  | @goes _ k w hw =>
    rw [hrunning] at hw
    have hless := hw.weight_lt
    have hsum := sum_weight_update Worker.weight s.worker k w
    simp only [weight]
    omega
  | lock hw hq => exact Nat.add_lt_add_left (hq.weight_lt rfl nofun) _
  | @popHead k task _ _ hplace hq =>
    have hless := hq.weight_popHead
    have hsum := sum_weight_update Worker.weight s.worker k (.popped task)
    rw [(hc.waiting (by rw [hplace]; nofun)).1] at hsum
    change _ + 6 = _ + 2 at hsum
    simp only [weight]
    omega
  | store hstopper =>
    exact absurd (hrunning.symm.trans (hc.stopper_at hstopper).1) Bool.false_ne_true
  | lockHead hstopper hq => exact Nat.add_lt_add_left (hq.weight_lt rfl nofun) _

/-- The threads go on to their end. -/
theorem goesOn (s : ThreadPool τ κ) (op : PoolOp τ κ) (h : Coherent s ∧ s.running = false)
    (hown : op.isOwn = true) (hok : (op.exec s).val = .ok ()) :
    (Coherent (op.exec s).state ∧ (op.exec s).state.running = false) ∧
      (op.exec s).state.weight < s.weight := by
  have hstep := h.1.stepped hok
  exact ⟨⟨h.1.step hstep, hstep.running h.2⟩, hstep.weight_lt h.1 h.2 hown⟩

end Weight

/-! ## Where it ends -/

omit [DecidableEq κ] in
theorem Coherent.running (hc : Coherent s) : s.running = true ↔ s.stopper = .idle := by
  cases hstopper : s.stopper with
  | idle => exact iff_of_true (hc.stopper_at hstopper).1 rfl
  | stored | emptying => exact iff_of_false (by rw [(hc.stopper_at hstopper).1]; nofun) nofun
  | _ => exact (hc.stopper_at hstopper).elim

/-- A worker that holds `headMutex_` goes on. -/
theorem Coherent.not_stuck (hc : Coherent s) (hheld : s.taskQueue.headMutex = some (some k)) :
    ¬s.Stuck := by
  intro hstuck
  obtain ⟨es, nodes, vals, hfifo⟩ := hc.fifo
  have hholds := (hfifo.owned (some k)).2 hheld
  have hcalls := (hc.waiting fun hidle => (by rw [hidle] at hholds; cases hholds)).2
  rcases hfifo.holder_goesOn hholds hcalls with hok | hok | hok | ⟨task, hplace, hok⟩
  · exact absurd (hok.symm.trans (hstuck (.wait k .compare) rfl)) nofun
  · exact absurd (hok.symm.trans (hstuck (.wait k .block) rfl)) nofun
  · exact absurd (hok.symm.trans (hstuck (.wait k .moveOut) rfl)) nofun
  · have hwaits := hstuck (.popHead k) rfl
    rw [PoolOp.exec, popHead, Act.get_bind, hplace] at hwaits
    exact absurd (hok.symm.trans ((Act.bind_modify _ _ s).1.symm.trans hwaits)) nofun

/-- `notify_all` takes `headMutex_` when it is free. -/
theorem Coherent.lockHead_ok (hc : Coherent s) (hstopper : s.stopper = .stored)
    (hfree : s.taskQueue.headMutex = none) : (lockHead s).val = .ok () := by
  have hlock : (ThreadSafeQueue.lock none ⟨false, false⟩ s.taskQueue).val = .ok () := by
    rw [ThreadSafeQueue.lock, Act.get_bind, (hc.stopper_at hstopper).2, hfree]
    rfl
  rw [lockHead, Act.get_bind, hstopper]
  exact (Act.bind_modify _ _ s).1.trans hlock

/-- **When every thread waits**, `stop()` waits for a mutex that its own thread holds. -/
theorem Coherent.emptying_of_stuck (hc : Coherent s) (hstuck : s.Stuck) :
    s.stopper = .emptying ∧ s.taskQueue.headMutex = some none := by
  obtain ⟨es, nodes, vals, hfifo⟩ := hc.fifo
  cases hstopper : s.stopper with
  | idle =>
    have hwaits := hstuck .store rfl
    rw [PoolOp.exec, store, Act.get_bind, hstopper] at hwaits
    cases hwaits
  | stored =>
    exfalso
    cases hheld : s.taskQueue.headMutex with
    | none =>
      have hwaits := hstuck .lockHead rfl
      rw [PoolOp.exec, hc.lockHead_ok hstopper hheld] at hwaits
      cases hwaits
    | some d =>
      cases d with
      | none =>
        have hholds := (hfifo.owned none).2 hheld
        rw [(hc.stopper_at hstopper).2] at hholds
        cases hholds
      | some k => exact hc.not_stuck hheld hstuck
  | emptying =>
    exact ⟨rfl, (hfifo.owned none).1 (by rw [(hc.stopper_at hstopper).2]; rfl)⟩
  | _ => exact (hc.stopper_at hstopper).elim

/-! ## Any run -/

variable {calls : List (PoolCall τ κ)}

theorem run_coherent (h : Run PoolOp.exec (fun _ _ => True) start calls s) : Coherent s :=
  h.invariant (I := fun _ s => Coherent s) start_coherent fun _ _ _ hc _ hok =>
    hc.step (hc.stepped hok)

/-- `stop()` is called, if it was not. -/
theorem run_stored (h : Run PoolOp.exec (fun _ _ => True) start calls s) :
    ∃ more s', Run PoolOp.exec (fun _ _ => True) start (calls ++ more) s' ∧
      s'.running = false := by
  cases hrunning : s.running with
  | false =>
    refine ⟨[], s, ?_, hrunning⟩
    rwa [List.append_nil]
  | true =>
    have hstopper := (run_coherent h).running.1 hrunning
    have hstore : PoolOp.store.exec s =
        ⟨.ok (), { s with running := false, stopper := .stored }, []⟩ := by
      rw [PoolOp.exec, store, Act.get_bind, hstopper]
      rfl
    refine ⟨_, _, h.snoc .store trivial (by rw [hstore]), ?_⟩
    rw [hstore]

/-- **`stop()` never returns**: whatever the workers and those that add tasks have done, the threads
can go on until every one of them waits, and the thread that called `stop()` then waits for
`headMutex_`, which it holds. -/
theorem stop_never_returns [Fintype κ] (h : Run PoolOp.exec (fun _ _ => True) start calls s) :
    s.stopper ≠ .returned ∧
      ∃ more s', Run PoolOp.exec (fun _ _ => True) start (calls ++ more) s' ∧ s'.Stuck ∧
        s'.stopper = .emptying ∧ s'.taskQueue.headMutex = some none := by
  have hc := run_coherent h
  refine ⟨fun hreturned => hc.stopper_at hreturned, ?_⟩
  · obtain ⟨more, s₁, hrun, hrunning⟩ := run_stored h
    obtain ⟨more', s₂, hrun', ⟨hc', -⟩, hwaits⟩ := hrun.exists_stuck weight (fun _ _ => trivial)
      goesOn ⟨run_coherent hrun, hrunning⟩
    have hstuck : s₂.Stuck := fun op hown => hc'.waits (hwaits op hown)
    rw [List.append_assoc] at hrun'
    exact ⟨_, s₂, hrun', hstuck, hc'.emptying_of_stuck hstuck⟩

/-- Two workers, one of which is in a task when `stop()` is called. -/
theorem stop_never_returns_of_two :
    ∃ (calls : List (PoolCall ℕ Bool)) (s : ThreadPool ℕ Bool),
      Run PoolOp.exec (fun _ _ => True) start calls s ∧ s.worker true = .popped 3 ∧
      s.stopper ≠ .returned ∧
      ∃ more s', Run PoolOp.exec (fun _ _ => True) start (calls ++ more) s' ∧ s'.Stuck ∧
        s'.stopper = .emptying ∧ s'.taskQueue.headMutex = some none := by
  have hrun : Run (PoolOp.exec (τ := ℕ) (κ := Bool)) (fun _ _ => True) start _ _ :=
    run_replay [.addTask 3, .initCallback true, .test true, .lock true, .wait true .compare,
      .wait true .moveOut, .popHead true, .store] (by decide +kernel)
  exact ⟨_, _, hrun, by decide +kernel, stop_never_returns hrun⟩

/-- A worker is blocked in `waitAndPop(task)` when `stop()` is called, and stays so. -/
theorem stop_leaves_worker_blocked :
    ¬∀ (calls : List (PoolCall ℕ Unit)) (s : ThreadPool ℕ Unit),
      Run PoolOp.exec (fun _ _ => True) start calls s → s.Stuck →
      s.stopper = .returned ∧ ∀ k, (s.taskQueue.consumer (some k)).isBlocked = false := by
  intro h
  have hrun : Run (PoolOp.exec (τ := ℕ) (κ := Unit)) (fun _ _ => True) start _ _ :=
    run_replay [.initCallback (), .test (), .lock (), .wait () .compare, .wait () .block, .store,
      .lockHead] (by decide +kernel)
  refine absurd ((h _ _ hrun fun op hown => ?_).2 ()) (by decide +kernel)
  cases op with
  | addTask => cases hown
  | notifyOne woken =>
    match woken with
    | none | some () => decide +kernel
  | initCallback k | test k | lock k | popHead k | runTask k =>
    cases k
    decide +kernel
  | wait k step =>
    cases k
    cases step with
    | wakeUp => cases hown
    | _ => decide +kernel
  | store | lockHead | lockEmpty | compareEmpty | notifyAll => decide +kernel

end ThreadPool

end Cannet.Base
