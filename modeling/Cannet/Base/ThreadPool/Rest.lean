import Cannet.Base.ThreadPool.Tasks
import Cannet.Base.ThreadSafeQueue.Notify

/-!
# A pool at rest

As long as `stop()` is not called the workers take every task there is, but for one: a push changes
`tail_` without `headMutex_`, and a worker that has just found the queue empty does not hear its
notification. Another worker does, or finds the task by itself. So a pool that has come to rest has
run all its tasks (`all_run_at_rest`), unless the last notification was made while its only worker
was about to block (`Missed`).
-/

namespace Cannet.Base

open Foundations

variable {τ κ : Type}

/-- The last notification still to do is made while a task is in the queue and the only worker is
about to block. -/
def Missed (call : PoolCall τ κ) : Prop :=
  (match call.input with
    | .notifyOne _ => call.before.taskQueue.notifies = 1
    | _ => False) ∧
  call.before.taskQueue.head ≠ some call.before.taskQueue.tail ∧
  ∃ k, (∀ d, d = k) ∧ (call.before.taskQueue.consumer (some k)).inGap = true

instance [DecidableEq κ] [Fintype κ] : DecidablePred (Missed (τ := τ) (κ := κ))
  | ⟨.notifyOne _, _, _⟩ => inferInstanceAs (Decidable (_ ∧ _ ∧ _))
  | ⟨.addTask _, _, _⟩ | ⟨.initCallback _, _, _⟩ | ⟨.test _, _, _⟩ | ⟨.lock _, _, _⟩
  | ⟨.wait _ _, _, _⟩ | ⟨.popHead _, _, _⟩ | ⟨.runTask _, _, _⟩ | ⟨.store, _, _⟩
  | ⟨.lockHead, _, _⟩ | ⟨.lockEmpty, _, _⟩ | ⟨.compareEmpty, _, _⟩ | ⟨.notifyAll, _, _⟩ =>
    isFalse fun h => h.1

variable [DecidableEq κ]

namespace ThreadPool

/-- No thread has a step to make, unless `stop()` is called. -/
def AtRest (s : ThreadPool τ κ) : Prop :=
  ∀ op : PoolOp τ κ, op.isOwn = true → op ≠ .store → (op.exec s).val = .error .waits

/-- If a task is in the queue of a running pool, a notification is still to do or a worker is awake;
no worker has left. -/
structure Attended (s : ThreadPool τ κ) : Prop where
  waiting : ∀ k, (s.taskQueue.consumer (some k)).isBlocked = true → some k ∈ s.taskQueue.waiters
  attended : s.running = true → s.taskQueue.head ≠ some s.taskQueue.tail →
    0 < s.taskQueue.notifies ∨ IsEmpty κ ∨ ∃ k, (s.taskQueue.consumer (some k)).awake = true
  present : s.running = true → ∀ k, s.worker k ≠ .returned

omit [DecidableEq κ] in
theorem start_attended : Attended (start : ThreadPool τ κ) where
  waiting _ hk := absurd hk Bool.false_ne_true
  attended _ hsome := absurd rfl hsome
  present _ _ h := by cases h

namespace Attended

variable {s s' : ThreadPool τ κ} {op : PoolOp τ κ} {k : κ}

/-- A worker is awake after its step in the queue. -/
theorem wakes {b : Consumer τ} (h : Attended s) (hb : b.awake = true)
    (hcons : s'.taskQueue.consumer = Function.update s.taskQueue.consumer (some k) b)
    (hwaiters : ∀ d, d ≠ k → some d ∈ s.taskQueue.waiters → some d ∈ s'.taskQueue.waiters)
    (hpresent : s'.running = true → ∀ d, s'.worker d ≠ .returned) : Attended s' := by
  have hk : s'.taskQueue.consumer (some k) = b := by
    rw [hcons, Function.update_self]
  refine ⟨fun d hd => ?_, fun _ _ => .inr (.inr ⟨k, hk ▸ hb⟩), hpresent⟩
  by_cases hdk : d = k
  · rw [hdk, hk] at hd
    rw [Consumer.awake, hd, Bool.not_true, Bool.and_false] at hb
    cases hb
  · rw [hcons, Function.update_of_ne fun heq => hdk (Option.some.inj heq)] at hd
    exact hwaiters d hdk (h.waiting d hd)

omit [DecidableEq κ] in
/-- **A notification is heard**, unless the only worker is about to block. -/
theorem attended_of_nobody (h : Attended s)
    (howned : Excludes s.taskQueue.headMutex s.taskQueue.consumer Consumer.holds)
    (hnone : s.taskQueue.waiters = [])
    (hgap : ¬∃ k, (∀ d, d = k) ∧ (s.taskQueue.consumer (some k)).inGap = true) :
    IsEmpty κ ∨ ∃ k, (s.taskQueue.consumer (some k)).awake = true := by
  by_contra hall
  obtain ⟨hsome, hawake⟩ := not_or.1 hall
  have hin : ∀ d, (s.taskQueue.consumer (some d)).inGap = true := by
    intro d
    have hblocked : (s.taskQueue.consumer (some d)).isBlocked = false := by
      rw [← Bool.not_eq_true]
      intro hd
      have hmem := h.waiting d hd
      rw [hnone] at hmem
      cases hmem
    have hd := not_exists.1 hawake d
    rwa [Consumer.awake, hblocked, Bool.not_false, Bool.and_true, Bool.not_eq_true',
      Bool.not_eq_false] at hd
  obtain ⟨k⟩ := not_isEmpty_iff.1 hsome
  refine hgap ⟨k, fun d => ?_, hin k⟩
  exact Option.some.inj
    (howned.unique (Consumer.holds_of_inGap (hin d)) (Consumer.holds_of_inGap (hin k)))

/-- A step of a worker in the queue, or the end of a push. -/
theorem queue {qop : QueueOp τ (Option κ)} {es : List (QueueEvent τ)}
    {q : ThreadSafeQueue τ (Option κ)} (h : Attended s) (hc : Coherent s)
    (hop : op.queueOp = some qop) (hq : s.taskQueue.Stepped qop es q)
    (hheard : ∀ woken, op = .notifyOne woken → s.taskQueue.notifies = 1 →
      s.taskQueue.head ≠ some s.taskQueue.tail →
      ¬∃ k, (∀ d, d = k) ∧ (s.taskQueue.consumer (some k)).inGap = true) :
    Attended { s with taskQueue := q } := by
  have hactor := PoolOp.queueOp_actor hop
  have hlocks := PoolOp.queueOp_locks hop
  cases hq with
  | push x => exact ⟨h.waiting, fun _ _ => .inl (Nat.succ_pos _), h.present⟩
  | @notify c _ _ _ | @wakeUp c _ _ =>
    cases c with
    | none => exact absurd rfl hactor
    | some k =>
      refine h.wakes (k := k) (b := .woken _) rfl rfl (fun d hd hmem => ?_) h.present
      exact List.mem_filter.2 ⟨hmem, decide_eq_true fun heq => hd (Option.some.inj heq)⟩
  | notifyNobody hpos hnone =>
    refine ⟨h.waiting, fun hrunning hsome => ?_, h.present⟩
    by_cases hlast : s.taskQueue.notifies = 1
    · obtain ⟨es, nodes, vals, hfifo⟩ := hc.fifo
      have hnotify : ∃ woken, op = .notifyOne woken := by
        cases op with
        | notifyOne woken => exact ⟨woken, rfl⟩
        | wait k step => cases step <;> cases hop
        | _ => cases hop
      obtain ⟨woken, rfl⟩ := hnotify
      exact .inr (h.attended_of_nobody hfifo.owned hnone (hheard woken rfl hlast hsome))
    · exact .inl (show 0 < s.taskQueue.notifies - 1 by omega)
  | lock => cases hlocks
  | @find c | @refuse c | @relock c | @moveOut c | @popMoved c | @popFound c =>
    cases c with
    | none => exact absurd rfl hactor
    | some k => exact h.wakes (k := k) (b := _) rfl rfl (fun _ _ hmem => hmem) h.present
  | @miss c p _ hempty =>
    cases c with
    | none => exact absurd rfl hactor
    | some k =>
      refine ⟨fun d hd => ?_, fun _ hsome => absurd hempty hsome, h.present⟩
      by_cases hdk : d = k
      · rw [hdk] at hd
        dsimp only at hd
        rw [Function.update_self] at hd
        cases hd
      · dsimp only at hd
        rw [Function.update_of_ne fun heq => hdk (Option.some.inj heq)] at hd
        exact h.waiting d hd
  | @block c p hgap =>
    cases c with
    | none => exact absurd rfl hactor
    | some k =>
      refine ⟨fun d hd => ?_, fun hrunning hsome => ?_, h.present⟩
      · by_cases hdk : d = k
        · exact List.mem_append_right _ (List.mem_singleton.2 (congrArg some hdk))
        · dsimp only at hd
          rw [Function.update_of_ne fun heq => hdk (Option.some.inj heq)] at hd
          exact List.mem_append_left _ (h.waiting d hd)
      · refine (h.attended hrunning hsome).imp_right (Or.imp_right fun ⟨d, hd⟩ => ⟨d, ?_⟩)
        -- the worker that blocks was in the gap, so it is not the one that is awake
        have hdk : d ≠ k := by
          rintro rfl
          rw [hgap] at hd
          cases hd
        dsimp only
        rwa [Function.update_of_ne fun heq => hdk (Option.some.inj heq)]

/-- No worker leaves a running pool. -/
theorem present_update {w : Worker τ} (h : Attended s) (hw : s.running = true → w ≠ .returned) :
    s.running = true → ∀ d, Function.update s.worker k w d ≠ .returned := by
  intro hrunning d
  by_cases hd : d = k
  · rw [hd, Function.update_self]
    exact hw hrunning
  · rw [Function.update_of_ne hd]
    exact h.present hrunning d

/-- **Every step but a missed notification** keeps the pool attended. -/
theorem step (h : Attended s) (hc : Coherent s) (hstep : Stepped s op s')
    (hheard : ∀ woken, op = .notifyOne woken → s.taskQueue.notifies = 1 →
      s.taskQueue.head ≠ some s.taskQueue.tail →
      ¬∃ k, (∀ d, d = k) ∧ (s.taskQueue.consumer (some k)).inGap = true) : Attended s' := by
  cases hstep with
  | queue hop hq => exact h.queue hc hop hq hheard
  | @goes _ k w hw =>
    refine ⟨h.waiting, h.attended, h.present_update fun hrunning => ?_⟩
    generalize s.worker k = v at hw
    cases hw with
    | leave hstopped => exact absurd (hrunning.symm.trans hstopped) fun h => by cases h
    | _ => exact fun h => by cases h
  | @lock k _ _ _ hq =>
    cases hq with
    | lock => exact h.wakes (k := k) (b := .locked _) rfl rfl (fun _ _ hmem => hmem) h.present
  | @popHead k task _ _ _ hq =>
    have hpresent := h.present_update (k := k) (w := .popped task) fun _ h => by cases h
    cases hq with
    | popMoved | popFound =>
      exact h.wakes (k := k) (b := .idle) rfl rfl (fun _ _ hmem => hmem) hpresent
  | store =>
    exact ⟨h.waiting, fun hrunning => absurd hrunning Bool.false_ne_true,
      fun hrunning => absurd hrunning Bool.false_ne_true⟩
  | lockHead hstopper hq =>
    have hnot : s.running ≠ true := fun hrunning =>
      absurd (hrunning.symm.trans (hc.stopper_at hstopper).1) fun h => by cases h
    refine ⟨fun d hd => ?_, fun hrunning => absurd hrunning hnot,
      fun hrunning => absurd hrunning hnot⟩
    cases hq with
    | lock =>
      dsimp only at hd
      rw [Function.update_of_ne (Option.some_ne_none d)] at hd
      exact h.waiting d hd

end Attended

/-! ## Where a pool rests -/

section Rest

variable {s : ThreadPool τ κ} {k : κ}

omit [DecidableEq κ] in
/-- Nobody but a worker holds `headMutex_` before `stop()` is called. -/
theorem Coherent.holder (hc : Coherent s) (hrunning : s.running = true) {c : Option κ}
    (hheld : s.taskQueue.headMutex = some c) : ∃ k, c = some k := by
  cases c with
  | some k => exact ⟨k, rfl⟩
  | none =>
    obtain ⟨es, nodes, vals, hfifo⟩ := hc.fifo
    have hholds := (hfifo.owned none).2 hheld
    have hstopper := hc.stopper
    cases hstop : s.stopper with
    | idle =>
      rw [hstop] at hstopper
      rw [hstopper.2] at hholds
      cases hholds
    | stored | emptying =>
      rw [hstop] at hstopper
      exact absurd (hrunning.symm.trans hstopper.1) fun h => by cases h
    | _ =>
      rw [hstop] at hstopper
      exact hstopper.elim

/-- At rest nobody holds `headMutex_`. -/
theorem AtRest.free (hrest : AtRest s) (hc : Coherent s) (hrunning : s.running = true) :
    s.taskQueue.headMutex = none := by
  by_contra hheld
  obtain ⟨c, hheld⟩ := Option.ne_none_iff_exists'.1 hheld
  obtain ⟨k, rfl⟩ := hc.holder hrunning hheld
  obtain ⟨es, nodes, vals, hfifo⟩ := hc.fifo
  have hholds := (hfifo.owned (some k)).2 hheld
  have hcalls := (hc.waiting fun hidle => (by rw [hidle] at hholds; cases hholds)).2
  rcases hfifo.holder_goesOn hholds hcalls with hok | hok | hok | ⟨task, hplace, hok⟩
  · exact not_waits hok (hrest (.wait k .compare) rfl fun h => by cases h)
  · exact not_waits hok (hrest (.wait k .block) rfl fun h => by cases h)
  · exact not_waits hok (hrest (.wait k .moveOut) rfl fun h => by cases h)
  · have hwaits := hrest (.popHead k) rfl fun h => by cases h
    rw [PoolOp.exec, popHead, Act.get_bind, hplace] at hwaits
    exact not_waits hok ((Act.bind_modify _ _ s).1.symm.trans hwaits)

/-- At rest every worker is blocked in `waitAndPop(task)`. -/
theorem AtRest.blocked (hrest : AtRest s) (hc : Coherent s) (h : Attended s)
    (hrunning : s.running = true) (k : κ) :
    s.worker k = .waiting ∧ ∃ p, s.taskQueue.consumer (some k) = .blocked p := by
  have hfree := hrest.free hc hrunning
  have hworker := hc.worker k
  cases hw : s.worker k with
  | starting =>
    have hwaits := hrest (.initCallback k) rfl fun h => by cases h
    rw [PoolOp.exec, initCallback, Act.get_bind, hw] at hwaits
    cases hwaits
  | testing =>
    have hwaits := hrest (.test k) rfl fun h => by cases h
    rw [PoolOp.exec, test, Act.get_bind, hw] at hwaits
    dsimp only at hwaits
    rw [hrunning] at hwaits
    cases hwaits
  | popped task =>
    have hwaits := hrest (.runTask k) rfl fun h => by cases h
    rw [PoolOp.exec, runTask, Act.get_bind, hw] at hwaits
    cases hwaits
  | returned => exact absurd hw (h.present hrunning k)
  | waiting =>
    refine ⟨rfl, ?_⟩
    obtain ⟨es, nodes, vals, hfifo⟩ := hc.fifo
    have hout : (s.taskQueue.consumer (some k)).holds = false := by
      have howned := hfifo.owned
      rw [hfree] at howned
      exact howned.outside (some k)
    cases hplace : s.taskQueue.consumer (some k) with
    | blocked p => exact ⟨p, rfl⟩
    | idle =>
      have hwaits := hrest (.lock k) rfl fun h => by cases h
      rw [PoolOp.exec, ThreadPool.lock, Act.get_bind, hw] at hwaits
      dsimp only [onQueue, Act.zoom] at hwaits
      rw [ThreadSafeQueue.lock, Act.get_bind, hplace, hfree] at hwaits
      cases hwaits
    | woken p =>
      have hwaits := hrest (.wait k .relock) rfl fun h => by cases h
      dsimp only [PoolOp.exec, WaitStep.op, QueueOp.exec, onQueue, Act.zoom] at hwaits
      rw [ThreadSafeQueue.relock, Act.get_bind, hplace, hfree] at hwaits
      cases hwaits
    | _ =>
      rw [hplace] at hout
      cases hout

/-- At rest no notification is left to do. -/
theorem AtRest.notified [Nonempty κ] (hrest : AtRest s) (hc : Coherent s) (h : Attended s)
    (hrunning : s.running = true) : s.taskQueue.notifies = 0 := by
  by_contra hpos
  obtain ⟨k⟩ := ‹Nonempty κ›
  obtain ⟨-, p, hblocked⟩ := hrest.blocked hc h hrunning k
  have hmem := h.waiting k (by rw [hblocked]; rfl)
  have hnotifiable : ThreadSafeQueue.Notifiable (some (some k)) s.taskQueue :=
    ⟨Nat.pos_of_ne_zero hpos, hmem⟩
  have hwaits := hrest (.notifyOne (some k)) rfl fun h => by cases h
  dsimp only [PoolOp.exec, onQueue, Act.zoom, Option.map_some] at hwaits
  rw [ThreadSafeQueue.notifyOne, Act.await_pos hnotifiable, Act.modify_bind,
    ThreadSafeQueue.wakeOne, ThreadSafeQueue.wakeUp, Act.get_bind] at hwaits
  dsimp only at hwaits
  rw [hblocked] at hwaits
  cases hwaits

/-- **At rest the queue is empty.** -/
theorem AtRest.empty [Nonempty κ] (hrest : AtRest s) (hc : Coherent s) (h : Attended s)
    (hrunning : s.running = true) : s.taskQueue.head = some s.taskQueue.tail := by
  by_contra hsome
  rcases h.attended hrunning hsome with hpos | hempty | ⟨k, hk⟩
  · rw [hrest.notified hc h hrunning] at hpos
    omega
  · exact not_isEmpty_iff.2 ‹Nonempty κ› hempty
  · obtain ⟨-, p, hblocked⟩ := hrest.blocked hc h hrunning k
    rw [hblocked] at hk
    cases hk

end Rest

/-! ## Any run -/

variable {calls : List (PoolCall τ κ)} {s : ThreadPool τ κ}

theorem run_attended (h : Run PoolOp.exec (fun _ call => ¬Missed call) start calls s) :
    (Coherent s ∧ Attended s) ∧ Handed calls s := by
  refine h.invariant (I := fun calls s => (Coherent s ∧ Attended s) ∧ Handed calls s)
    ⟨⟨start_coherent, start_attended⟩, start_handed⟩ ?_
  rintro calls s op ⟨⟨hc, hattended⟩, hhanded⟩ hguard hok
  have hstep := hc.stepped hok
  refine ⟨⟨hc.step hstep, hattended.step hc hstep fun woken hop hlast hsome hgap => hguard ?_⟩,
    hhanded.step hc op hok⟩
  subst hop
  exact ⟨hlast, hsome, hgap⟩

/-- **A pool at rest has run all its tasks**: in every run in which no notification is missed, which
takes a pool with one worker, a pool that has workers, on which `stop()` was not called, has taken
and run every task that was added once nothing is left to do for its threads. -/
theorem all_run_at_rest [Nonempty κ]
    (h : Run PoolOp.exec (fun _ call => ¬Missed call) start calls s) (hrunning : s.running = true)
    (hrest : s.AtRest) :
    added calls = (taken calls).map Prod.snd ∧
      ∀ k, ofWorker k (taken calls) = ofWorker k (ran calls) := by
  obtain ⟨⟨hc, hattended⟩, hhanded⟩ := run_attended h
  constructor
  · obtain ⟨es, nodes, vals, hfifo, hpush, hpop⟩ := hhanded.order
    have hall := hfifo.popped_all (hrest.empty hc hattended hrunning)
    rw [hpush, hpop] at hall
    refine List.map_injective_iff.2 (Option.some_injective τ) ?_
    rw [← hall, List.map_map]
    rfl
  · intro k
    rw [hhanded.hands k, (hrest.blocked hc hattended hrunning k).1]
    exact List.append_nil _

/-- Two workers rest, one of which has run two tasks. -/
theorem all_run_at_rest_of_two :
    ∃ (calls : List (PoolCall ℕ Bool)) (s : ThreadPool ℕ Bool),
      Run PoolOp.exec (fun _ call => ¬Missed call) start calls s ∧
        (added calls = (taken calls).map Prod.snd ∧
          ∀ k, ofWorker k (taken calls) = ofWorker k (ran calls)) ∧
        added calls = [3, 4] ∧ ran calls = [(true, 3), (true, 4)] := by
  have hrun : Run (PoolOp.exec (τ := ℕ) (κ := Bool)) (fun _ call => ¬Missed call) start _ _ :=
    run_replay [.initCallback true, .test true, .lock true, .wait true .compare, .addTask 3,
      .notifyOne none, .wait true .block, .initCallback false, .test false, .wait true .wakeUp,
      .wait true .relock, .wait true .compare, .addTask 4, .notifyOne none, .wait true .moveOut,
      .popHead true, .runTask true, .test true, .lock true, .wait true .compare,
      .wait true .moveOut, .popHead true, .runTask true, .test true, .lock true,
      .wait true .compare, .wait true .block, .lock false, .wait false .compare, .wait false .block]
      (by decide +kernel)
  refine ⟨_, _, hrun, all_run_at_rest hrun (by decide +kernel) fun op hown hstore => ?_,
    by decide +kernel, by decide +kernel⟩
  cases op with
  | addTask => cases hown
  | notifyOne woken =>
    match woken with
    | none | some true | some false => decide +kernel
  | initCallback k | test k | lock k | popHead k | runTask k => cases k <;> decide +kernel
  | wait k step =>
    cases step with
    | wakeUp => cases hown
    | _ => cases k <;> decide +kernel
  | store => exact absurd rfl hstore
  | lockHead | lockEmpty | compareEmpty | notifyAll => decide +kernel

end ThreadPool

end Cannet.Base
