import Cannet.Base.ThreadPool
import Cannet.Base.ThreadSafeQueue.Turns

/-!
# What a step of the pool does

A worker is a consumer of the queue while it is in `waitAndPop(task)`, and the thread that calls
`stop()` is one in `notify_all`. `Coherent` says so, and how far that thread gets: it holds
`headMutex_` from `lockHead` on, so that `empty` waits for it for ever. `Stepped` lists the steps
that can be made then; `Coherent.stepped` says that there is no other one, and `Coherent.step` that
each of them keeps `Coherent`.
-/

namespace Cannet.Base

open Foundations

variable {τ κ : Type}

/-- The step of the queue, where that is all. -/
def PoolOp.queueOp : PoolOp τ κ → Option (QueueOp τ (Option κ))
  | addTask task => some (.push task)
  | notifyOne woken => some (.notifyOne (woken.map some))
  | wait k step => some (step.op (some k))
  | _ => none

namespace PoolOp

variable {op : PoolOp τ κ} {qop : QueueOp τ (Option κ)}

theorem queueOp_locks (h : op.queueOp = some qop) : qop.locks = false := by
  cases op with
  | addTask | notifyOne =>
    obtain rfl := Option.some.inj h
    rfl
  | wait k step =>
    obtain rfl := Option.some.inj h
    cases step <;> rfl
  | _ => cases h

/-- The thread that calls `stop()` is moved by its own steps only. -/
theorem queueOp_actor (h : op.queueOp = some qop) : qop.actor ≠ some none := by
  cases op with
  | addTask =>
    obtain rfl := Option.some.inj h
    nofun
  | notifyOne woken =>
    obtain rfl := Option.some.inj h
    cases woken <;> nofun
  | wait k step =>
    obtain rfl := Option.some.inj h
    cases step <;> nofun
  | _ => cases h

end PoolOp

/-- Where a worker goes without the queue. -/
inductive Worker.Goes (running : Bool) : Worker τ → Worker τ → Prop
  | initCallback : Goes running .starting .testing
  | go (h : running = true) : Goes running .testing .waiting
  | leave (h : running = false) : Goes running .testing .returned
  | runTask (task : τ) : Goes running (.popped task) .testing

/-- Where a worker may be in the queue. -/
def Worker.Allows : Worker τ → Consumer τ → Prop
  | waiting, c => c.Calls ⟨true, true⟩
  | _, c => c = .idle

/-- How far `stop()` gets, and where that is in the queue. -/
def StopCall.Allows (running : Bool) : StopCall → Consumer τ → Prop
  | idle, c => running = true ∧ c = .idle
  | stored, c => running = false ∧ c = .idle
  | emptying, c => running = false ∧ c = .locked ⟨false, false⟩
  | _, _ => False

theorem Worker.allows_idle (w : Worker τ) : w.Allows .idle := by
  cases w with
  | waiting => trivial
  | _ => rfl

namespace ThreadPool

/-- The threads are in the queue where they are in the pool. -/
structure Coherent (s : ThreadPool τ κ) : Prop where
  fifo : ∃ es nodes vals, s.taskQueue.Fifo es nodes vals
  worker : ∀ k, (s.worker k).Allows (s.taskQueue.consumer (some k))
  stopper : s.stopper.Allows s.running (s.taskQueue.consumer none)

theorem start_coherent : Coherent (start : ThreadPool τ κ) where
  fifo := ⟨[], [], [], ThreadSafeQueue.init_fifo⟩
  worker _ := rfl
  stopper := ⟨rfl, rfl⟩

theorem Coherent.stopper_at {s : ThreadPool τ κ} {state : StopCall} (hc : Coherent s)
    (h : s.stopper = state) : state.Allows s.running (s.taskQueue.consumer none) := h ▸ hc.stopper

/-- A worker that is in a call is in `waitAndPop(task)`. -/
theorem Coherent.waiting {s : ThreadPool τ κ} {k : κ} (hc : Coherent s)
    (hk : s.taskQueue.consumer (some k) ≠ .idle) :
    s.worker k = .waiting ∧ (s.taskQueue.consumer (some k)).Calls ⟨true, true⟩ := by
  have hw := hc.worker k
  cases hplace : s.worker k with
  | waiting =>
    rw [hplace] at hw
    exact ⟨rfl, hw⟩
  | _ =>
    rw [hplace] at hw
    exact absurd hw hk

variable [DecidableEq κ]

inductive Stepped (s : ThreadPool τ κ) : PoolOp τ κ → ThreadPool τ κ → Prop
  | queue {op : PoolOp τ κ} {qop : QueueOp τ (Option κ)} {es : List (QueueEvent τ)}
    {q : ThreadSafeQueue τ (Option κ)} (hop : op.queueOp = some qop)
    (hq : s.taskQueue.Stepped qop es q) : Stepped s op { s with taskQueue := q }
  | goes {op : PoolOp τ κ} {k : κ} {w : Worker τ} (hw : (s.worker k).Goes s.running w) :
    Stepped s op { s with worker := Function.update s.worker k w }
  | lock {k : κ} {es : List (QueueEvent τ)} {q : ThreadSafeQueue τ (Option κ)}
    (hw : s.worker k = .waiting) (hq : s.taskQueue.Stepped (.lock (some k) ⟨true, true⟩) es q) :
    Stepped s (.lock k) { s with taskQueue := q }
  | popHead {k : κ} {task : τ} {es : List (QueueEvent τ)} {q : ThreadSafeQueue τ (Option κ)}
    (hc : s.taskQueue.consumer (some k) = .moved task)
    (hq : s.taskQueue.Stepped (.popHead (some k)) es q) :
    Stepped s (.popHead k)
      { s with taskQueue := q, worker := Function.update s.worker k (.popped task) }
  | store (h : s.stopper = .idle) : Stepped s .store { s with running := false, stopper := .stored }
  | lockHead {es : List (QueueEvent τ)} {q : ThreadSafeQueue τ (Option κ)}
    (h : s.stopper = .stored) (hq : s.taskQueue.Stepped (.lock none ⟨false, false⟩) es q) :
    Stepped s .lockHead { s with taskQueue := q, stopper := .emptying }

variable {s s' : ThreadPool τ κ} {op : PoolOp τ κ}

/-- One worker makes a step in the queue, and is where it may be after that. -/
theorem Coherent.turn {qop : QueueOp τ (Option κ)} {es : List (QueueEvent τ)}
    {q : ThreadSafeQueue τ (Option κ)} {worker : κ → Worker τ} {k : κ} (hc : Coherent s)
    (hq : s.taskQueue.Stepped qop es q) (hactor : qop.actor = some (some k))
    (hothers : ∀ d, d ≠ k → worker d = s.worker d)
    (hk : (worker k).Allows (q.consumer (some k))) :
    Coherent { s with taskQueue := q, worker := worker } := by
  obtain ⟨es', nodes, vals, hfifo⟩ := hc.fifo
  obtain ⟨nodes', vals', hfifo'⟩ := hfifo.step hq
  have hframe : ∀ d, d ≠ some k → q.consumer d = s.taskQueue.consumer d := by
    intro d hd
    refine hq.frame fun heq => hd ?_
    rw [hactor] at heq
    exact (Option.some.inj heq).symm
  refine ⟨⟨_, nodes', vals', hfifo'⟩, fun d => ?_, ?_⟩
  · by_cases hd : d = k
    · rw [hd]
      exact hk
    · rw [hframe (some d) fun heq => hd (Option.some.inj heq)]
      simp only [hothers d hd]
      exact hc.worker d
  · rw [hframe none nofun]
    exact hc.stopper

/-- **A step keeps the threads in their places.** -/
theorem Coherent.step (hc : Coherent s) (h : Stepped s op s') : Coherent s' := by
  obtain ⟨es, nodes, vals, hfifo⟩ := hc.fifo
  cases h with
  | queue hop hq =>
    obtain ⟨nodes', vals', hfifo'⟩ := hfifo.step hq
    refine ⟨⟨_, nodes', vals', hfifo'⟩, fun k => ?_, ?_⟩
    · have hk := hc.worker k
      cases hw : s.worker k with
      | waiting =>
        rw [hw] at hk
        exact hq.calls (PoolOp.queueOp_locks hop) hk
      | _ =>
        rw [hw] at hk
        exact hq.idle (PoolOp.queueOp_locks hop) hk
    · rw [hq.frame (PoolOp.queueOp_actor hop)]
      exact hc.stopper
  | @goes _ k w hw =>
    refine ⟨hc.fifo, fun d => ?_, hc.stopper⟩
    by_cases hd : d = k
    · have hk := hc.worker k
      have hidle : s.taskQueue.consumer (some k) = .idle := by
        generalize s.worker k = v at hw hk
        cases hw <;> exact hk
      simp only [hd, Function.update_self, hidle]
      exact w.allows_idle
    · simp only [Function.update_of_ne hd]
      exact hc.worker d
  | lock hw hq =>
    refine hc.turn hq rfl (fun _ _ => rfl) ?_
    rw [hw, hq.locked_of_lock]
    rfl
  | popHead _ hq =>
    refine hc.turn hq rfl (fun d hd => Function.update_of_ne hd _ _) ?_
    rw [Function.update_self, hq.idle_of_popHead]
    rfl
  | store hstopper =>
    have hstop := hc.stopper_at hstopper
    exact ⟨hc.fifo, hc.worker, rfl, hstop.2⟩
  | lockHead hstopper hq =>
    obtain ⟨nodes', vals', hfifo'⟩ := hfifo.step hq
    have hstop := hc.stopper_at hstopper
    refine ⟨⟨_, nodes', vals', hfifo'⟩, fun d => ?_, hstop.1, hq.locked_of_lock⟩
    rw [hq.frame fun heq => (by cases heq)]
    exact hc.worker d

/-! ## There is no other way -/

omit [DecidableEq κ] in
/-- `notify_all` holds `headMutex_`, and `empty` does not get it. -/
theorem lockEmpty_waits (hc : Coherent s) : (lockEmpty s).val = .error .waits := by
  rw [lockEmpty, Act.get_bind]
  cases hstopper : s.stopper with
  | emptying =>
    obtain ⟨es, nodes, vals, hfifo⟩ := hc.fifo
    have hheld : s.taskQueue.headMutex = some none :=
      (hfifo.owned none).1 (by rw [(hc.stopper_at hstopper).2]; rfl)
    have hwaits : (onQueue (ThreadSafeQueue.lockEmpty none) s).val = .error .waits := by
      rw [onQueue, Act.zoom, ThreadSafeQueue.lockEmpty, Act.await_neg (by rw [hheld]; nofun)]
    exact (Act.bind_modify _ _ s).1.trans hwaits
  | _ => rfl

omit [DecidableEq κ] in
theorem compareEmpty_waits (hc : Coherent s) : (compareEmpty s).val = .error .waits := by
  rw [compareEmpty, Act.get_bind]
  cases hstopper : s.stopper with
  | comparing =>
    exact (hc.stopper_at hstopper).elim
  | _ => rfl

theorem notifyAll_waits (hc : Coherent s) : (notifyAll s).val = .error .waits := by
  rw [notifyAll, Act.get_bind]
  cases hstopper : s.stopper with
  | emptied empty =>
    exact (hc.stopper_at hstopper).elim
  | _ => rfl

theorem onQueue_stepped (qop : QueueOp τ (Option κ))
    (h : (onQueue qop.exec s).val = .ok ()) :
    s.taskQueue.Stepped qop (qop.exec s.taskQueue).trace (qop.exec s.taskQueue).state :=
  ThreadSafeQueue.stepped h

theorem initCallback_stepped {k : κ} (h : (initCallback k s).val = .ok ()) :
    Stepped s (.initCallback k) (initCallback k s).state := by
  rw [initCallback, Act.get_bind] at h ⊢
  cases hw : s.worker k with
  | starting => exact .goes (by rw [hw]; exact .initCallback)
  | _ =>
    rw [hw] at h
    cases h

theorem test_stepped {k : κ} (h : (test k s).val = .ok ()) :
    Stepped s (.test k) (test k s).state := by
  rw [test, Act.get_bind] at h ⊢
  cases hw : s.worker k with
  | testing =>
    cases hrunning : s.running with
    | true => exact .goes (by rw [hw]; exact .go hrunning)
    | false => exact .goes (by rw [hw]; exact .leave hrunning)
  | _ =>
    rw [hw] at h
    cases h

theorem runTask_stepped {k : κ} (h : (runTask k s).val = .ok ()) :
    Stepped s (.runTask k) (runTask k s).state := by
  rw [runTask, Act.get_bind] at h ⊢
  cases hw : s.worker k with
  | popped task => exact .goes (by rw [hw]; exact .runTask task)
  | _ =>
    rw [hw] at h
    cases h

theorem lock_stepped {k : κ} (h : (lock k s).val = .ok ()) :
    Stepped s (.lock k) (lock k s).state := by
  rw [lock, Act.get_bind] at h ⊢
  cases hw : s.worker k with
  | waiting =>
    rw [hw] at h
    exact .lock hw (onQueue_stepped (.lock (some k) ⟨true, true⟩) h)
  | _ =>
    rw [hw] at h
    cases h

theorem store_stepped (h : (store s).val = .ok ()) : Stepped s .store (store s).state := by
  rw [store, Act.get_bind] at h ⊢
  cases hstopper : s.stopper with
  | idle => exact .store hstopper
  | _ =>
    rw [hstopper] at h
    cases h

/-- A step in the queue and one out of it. -/
theorem onQueue_bind_ok (qop : QueueOp τ (Option κ)) {g : ThreadPool τ κ → ThreadPool τ κ}
    (h : ((onQueue qop.exec >>= fun _ => Act.modify g) s).val = .ok ()) :
    s.taskQueue.Stepped qop (qop.exec s.taskQueue).trace (qop.exec s.taskQueue).state ∧
      ((onQueue qop.exec >>= fun _ => Act.modify g) s).state =
        g { s with taskQueue := (qop.exec s.taskQueue).state } := by
  obtain ⟨hval, hstate⟩ := Act.bind_modify (onQueue qop.exec) g s
  have hok := hval.symm.trans h
  exact ⟨onQueue_stepped qop hok, hstate hok⟩

theorem popHead_stepped {k : κ} (h : (popHead k s).val = .ok ()) :
    Stepped s (.popHead k) (popHead k s).state := by
  rw [popHead, Act.get_bind] at h ⊢
  cases hplace : s.taskQueue.consumer (some k) with
  | moved task =>
    rw [hplace] at h
    obtain ⟨hq, hstate⟩ := onQueue_bind_ok (.popHead (some k)) h
    exact hstate ▸ .popHead hplace hq
  | _ =>
    rw [hplace] at h
    cases h

theorem lockHead_stepped (h : (lockHead s).val = .ok ()) :
    Stepped s .lockHead (lockHead s).state := by
  rw [lockHead, Act.get_bind] at h ⊢
  cases hstopper : s.stopper with
  | stored =>
    rw [hstopper] at h
    obtain ⟨hq, hstate⟩ := onQueue_bind_ok (.lock none ⟨false, false⟩) h
    exact hstate ▸ .lockHead hstopper hq
  | _ =>
    rw [hstopper] at h
    cases h

/-- **Every step is one of the listed ones.** -/
theorem Coherent.stepped (hc : Coherent s) (h : (op.exec s).val = .ok ()) :
    Stepped s op (op.exec s).state := by
  cases op with
  | addTask task => exact .queue rfl (onQueue_stepped (.push task) h)
  | notifyOne woken => exact .queue rfl (onQueue_stepped (.notifyOne (woken.map some)) h)
  | initCallback k => exact initCallback_stepped h
  | test k => exact test_stepped h
  | lock k => exact lock_stepped h
  | wait k step => exact .queue rfl (onQueue_stepped (step.op (some k)) h)
  | popHead k => exact popHead_stepped h
  | runTask k => exact runTask_stepped h
  | store => exact store_stepped h
  | lockHead => exact lockHead_stepped h
  | lockEmpty => exact absurd (h.symm.trans (lockEmpty_waits hc)) nofun
  | compareEmpty => exact absurd (h.symm.trans (compareEmpty_waits hc)) nofun
  | notifyAll => exact absurd (h.symm.trans (notifyAll_waits hc)) nofun

theorem Coherent.onQueue_not_fails (hc : Coherent s) (qop : QueueOp τ (Option κ))
    (fault : QueueFault) : (onQueue qop.exec s).val ≠ .error (.fails fault) := by
  obtain ⟨es, nodes, vals, hfifo⟩ := hc.fifo
  exact hfifo.not_fails qop fault

theorem Coherent.onQueue_bind_not_fails (hc : Coherent s) (qop : QueueOp τ (Option κ))
    (g : ThreadPool τ κ → ThreadPool τ κ) (fault : QueueFault) :
    ((onQueue qop.exec >>= fun _ => Act.modify g) s).val ≠ .error (.fails fault) := by
  rw [(Act.bind_modify _ g s).1]
  exact hc.onQueue_not_fails qop fault

/-- No step fails. -/
theorem Coherent.not_fails (hc : Coherent s) (op : PoolOp τ κ) (fault : QueueFault) :
    (op.exec s).val ≠ .error (.fails fault) := by
  cases op with
  | addTask task => exact hc.onQueue_not_fails (.push task) fault
  | notifyOne woken => exact hc.onQueue_not_fails (.notifyOne (woken.map some)) fault
  | wait k step => exact hc.onQueue_not_fails (step.op (some k)) fault
  | initCallback k =>
    rw [PoolOp.exec, initCallback, Act.get_bind]
    cases s.worker k <;> nofun
  | test k =>
    rw [PoolOp.exec, test, Act.get_bind]
    cases s.worker k <;> cases s.running <;> nofun
  | runTask k =>
    rw [PoolOp.exec, runTask, Act.get_bind]
    cases s.worker k <;> nofun
  | lock k =>
    rw [PoolOp.exec, lock, Act.get_bind]
    cases s.worker k with
    | waiting => exact hc.onQueue_not_fails (.lock (some k) ⟨true, true⟩) fault
    | _ => nofun
  | popHead k =>
    rw [PoolOp.exec, popHead, Act.get_bind]
    cases s.taskQueue.consumer (some k) with
    | moved task => exact hc.onQueue_bind_not_fails (.popHead (some k)) _ fault
    | _ => nofun
  | store =>
    rw [PoolOp.exec, store, Act.get_bind]
    cases s.stopper <;> nofun
  | lockHead =>
    rw [PoolOp.exec, lockHead, Act.get_bind]
    cases s.stopper with
    | stored => exact hc.onQueue_bind_not_fails (.lock none ⟨false, false⟩) _ fault
    | _ => nofun
  | lockEmpty =>
    rw [PoolOp.exec, lockEmpty_waits hc]
    nofun
  | compareEmpty =>
    rw [PoolOp.exec, compareEmpty_waits hc]
    nofun
  | notifyAll =>
    rw [PoolOp.exec, notifyAll_waits hc]
    nofun

/-- A step that is not made waits. -/
theorem Coherent.waits (hc : Coherent s) (h : (op.exec s).val ≠ .ok ()) :
    (op.exec s).val = .error .waits := by
  cases hval : (op.exec s).val with
  | ok => exact absurd hval h
  | error halt =>
    cases halt with
    | waits => rfl
    | fails fault => exact absurd hval (hc.not_fails op fault)

end ThreadPool

end Cannet.Base
