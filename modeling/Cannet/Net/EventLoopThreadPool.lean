import Cannet.Foundations.Run
import Mathlib.Data.Int.Basic
import Mathlib.Data.List.GetD
import Mathlib.Data.List.Nodup

/-!
# The loops of a server

`setThreadNum`, `start` and `getNextLoop` of `net/EventLoopThreadPool.cpp`, and
`TcpServer::setThreadNum`. The loop that a thread of the pool runs is named by the place of the
thread in the pool.

`getNextLoop` takes the loops in turn. It reduces its position modulo `numThreads_`, which is the
number of loops as long as nobody sets it again after `start`; `setThreadNum` does not look whether
the pool has started. The turns are right as long as the two agree on where the position wraps
around (`EventLoopThreadPool.Agrees`), and go wrong with the first call that finds them to differ
(`loops_in_turn`).
-/

namespace Cannet.Net

open Foundations

/-- An `EventLoop *`. -/
inductive LoopPtr
  | base
  | thread (i : ℕ)
  deriving DecidableEq, Repr

/-- How a call of the pool may fail. -/
inductive LoopPoolAbort
  | assertion
  | outOfRange
  | remainderByZero
  deriving DecidableEq, Repr

structure EventLoopThreadPool where
  baseLoop : LoopPtr
  started : Bool
  numThreads : ℕ
  next : ℕ
  loops : List LoopPtr
  deriving DecidableEq, Repr

/-- A call of the pool; it hands out loops. -/
abbrev LoopPoolAct (α : Type) := Act LoopPoolAbort LoopPtr EventLoopThreadPool α

namespace EventLoopThreadPool

/-- A pool as its constructor leaves it. -/
def init : EventLoopThreadPool := ⟨.base, false, 0, 0, []⟩

def setThreadNum (numThreads : ℕ) : LoopPoolAct Unit :=
  Act.modify fun s => { s with numThreads := numThreads }

/-- Each thread runs a loop of its own, which `startLoop` returns. -/
def start : LoopPoolAct Unit := do
  let s ← Act.get
  Act.check .assertion (s.started = false)
  Act.modify fun s => { s with started := true }
  Act.modify fun s => { s with loops := s.loops ++ (List.range s.numThreads).map .thread }

def getNextLoop : LoopPoolAct Unit := do
  let s ← Act.get
  Act.check .assertion (s.started = true)
  if s.loops.isEmpty then
    Act.emit s.baseLoop
  else
    let loop ← Act.need .outOfRange s.loops[s.next]?
    Act.check .remainderByZero (s.numThreads ≠ 0)
    Act.modify fun s => { s with next := (s.next + 1) % s.numThreads }
    Act.emit loop

end EventLoopThreadPool

/-- `TcpServer::setThreadNum`. -/
def TcpServer.setThreadNum (numThreads : ℤ) : LoopPoolAct Unit := do
  Act.check .assertion (0 ≤ numThreads)
  EventLoopThreadPool.setThreadNum numThreads.toNat

inductive LoopPoolOp
  | setThreadNum (numThreads : ℕ)
  | serverSetThreadNum (numThreads : ℤ)
  | start
  | getNextLoop
  deriving DecidableEq

namespace LoopPoolOp

def exec : LoopPoolOp → LoopPoolAct Unit
  | setThreadNum numThreads => EventLoopThreadPool.setThreadNum numThreads
  | serverSetThreadNum numThreads => TcpServer.setThreadNum numThreads
  | start => EventLoopThreadPool.start
  | getNextLoop => EventLoopThreadPool.getNextLoop

/-- The numbers may be set at any time; the pool is started once and gives loops afterwards. -/
def Allowed (s : EventLoopThreadPool) : LoopPoolOp → Prop
  | setThreadNum _ => True
  | serverSetThreadNum numThreads => 0 ≤ numThreads
  | start => s.started = false
  | getNextLoop => s.started = true

instance (s : EventLoopThreadPool) : ∀ op : LoopPoolOp, Decidable (op.Allowed s)
  | setThreadNum _ => isTrue trivial
  | serverSetThreadNum _ => inferInstanceAs (Decidable (_ ≤ _))
  | start | getNextLoop => inferInstanceAs (Decidable (_ = _))

end LoopPoolOp

abbrev LoopPoolCall := Call LoopPoolOp LoopPoolAbort LoopPtr EventLoopThreadPool

namespace EventLoopThreadPool

/-- The loop whose turn it is at the `i`-th call. -/
def turn (s : EventLoopThreadPool) (i : ℕ) : LoopPtr :=
  s.loops.getD (i % s.loops.length) s.baseLoop

/-- `numThreads_` lets the position wrap around where the loops end, in the next step at least:
before the last loop it is beyond the next position, at the last one it divides the number of
loops. -/
def Agrees (s : EventLoopThreadPool) : Prop :=
  if s.next + 1 < s.loops.length then s.next + 1 < s.numThreads
  else s.numThreads ∣ s.loops.length

instance (s : EventLoopThreadPool) : Decidable s.Agrees :=
  inferInstanceAs (Decidable (if s.next + 1 < s.loops.length then s.next + 1 < s.numThreads
    else s.numThreads ∣ s.loops.length))

/-! ## One call -/

variable {s : EventLoopThreadPool}

/-- Without loops of its own the pool gives the base loop. -/
theorem getNextLoop_base (h : s.started = true) (hloops : s.loops = []) :
    getNextLoop s = ⟨.ok (), s, [s.baseLoop]⟩ := by
  rw [getNextLoop, Act.get_bind, Act.check_pos _ h, Act.pure_bind, hloops]
  rfl

/-- With a position among the loops, and a number to reduce by. -/
theorem getNextLoop_apply (h : s.started = true) (hnext : s.next < s.loops.length)
    (hnum : s.numThreads ≠ 0) :
    getNextLoop s =
      ⟨.ok (), { s with next := (s.next + 1) % s.numThreads }, [s.loops[s.next]]⟩ := by
  have hempty : s.loops.isEmpty = false := by
    rw [List.isEmpty_eq_false_iff, ← List.length_pos_iff]
    omega
  rw [getNextLoop, Act.get_bind, Act.check_pos _ h, Act.pure_bind, hempty,
    if_neg Bool.false_ne_true, List.getElem?_eq_getElem hnext, Act.need_some, Act.pure_bind,
    Act.check_pos _ hnum]
  rfl

/-- A position beyond the loops. -/
theorem getNextLoop_outOfRange (h : s.started = true) (hloops : s.loops ≠ [])
    (hnext : s.loops.length ≤ s.next) : getNextLoop s = ⟨.error .outOfRange, s, []⟩ := by
  rw [getNextLoop, Act.get_bind, Act.check_pos _ h, Act.pure_bind,
    List.isEmpty_eq_false_iff.2 hloops, if_neg Bool.false_ne_true,
    List.getElem?_eq_none hnext]
  rfl

/-- No number to reduce by. -/
theorem getNextLoop_zero (h : s.started = true) (hnext : s.next < s.loops.length)
    (hnum : s.numThreads = 0) : (getNextLoop s).val = .error .remainderByZero := by
  have hempty : s.loops.isEmpty = false := by
    rw [List.isEmpty_eq_false_iff, ← List.length_pos_iff]
    omega
  rw [getNextLoop, Act.get_bind, Act.check_pos _ h, Act.pure_bind, hempty,
    if_neg Bool.false_ne_true, List.getElem?_eq_getElem hnext, Act.need_some, Act.pure_bind,
    Act.check_neg _ (not_not.2 hnum)]
  rfl

/-- **Where the numbers agree** the position goes on as it would modulo the number of loops. -/
theorem agrees_iff (hnext : s.next < s.loops.length) :
    s.Agrees ↔ s.numThreads ≠ 0 ∧
      (s.next + 1) % s.numThreads = (s.next + 1) % s.loops.length := by
  rw [Agrees]
  split
  · rename_i hlt
    rw [Nat.mod_eq_of_lt hlt]
    constructor
    · intro hle
      exact ⟨by omega, Nat.mod_eq_of_lt hle⟩
    · rintro ⟨hpos, hmod⟩
      have hbound := Nat.mod_lt (s.next + 1) (Nat.pos_of_ne_zero hpos)
      omega
  · rename_i hge
    have hlast : s.next + 1 = s.loops.length := by omega
    rw [hlast, Nat.mod_self, Nat.dvd_iff_mod_eq_zero]
    constructor
    · intro hmod
      refine ⟨fun hzero => ?_, hmod⟩
      rw [hzero, Nat.mod_zero] at hmod
      omega
    · exact And.right

/-- The loop at the position of the `i`-th turn. -/
theorem turn_eq {i : ℕ} (hnext : s.next = i % s.loops.length) (hlt : s.next < s.loops.length) :
    s.turn i = s.loops[s.next] := by
  rw [turn, ← hnext, List.getD_eq_getElem _ _ hlt]

theorem turn_base (h : s.loops = []) (i : ℕ) : s.turn i = s.baseLoop := by
  rw [turn, h]
  rfl

/-! ## Any run -/

/-- After `k` loops have been given. -/
structure InTurn (s : EventLoopThreadPool) (k : ℕ) : Prop where
  before : s.started = false → s.loops = [] ∧ k = 0 ∧ s.next = 0
  position : s.loops ≠ [] → s.next = k % s.loops.length
  threads : ∃ n, s.loops = (List.range n).map .thread

theorem InTurn.next_lt {k : ℕ} (h : s.InTurn k) (hloops : s.loops ≠ []) :
    s.next < s.loops.length := by
  rw [h.position hloops]
  exact Nat.mod_lt k (List.length_pos_iff.2 hloops)

/-- The loops are different. -/
theorem InTurn.nodup {k : ℕ} (h : s.InTurn k) : s.loops.Nodup := by
  obtain ⟨n, hn⟩ := h.threads
  rw [hn]
  exact List.nodup_range.map fun _ _ hij => LoopPtr.thread.inj hij

/-- **One loop more**, whose turn it is. -/
theorem InTurn.getNextLoop {k : ℕ} (h : s.InTurn k) (hstarted : s.started = true)
    (hagree : s.loops ≠ [] → s.Agrees) :
    ∃ s', EventLoopThreadPool.getNextLoop s = ⟨.ok (), s', [s.turn k]⟩ ∧ s'.InTurn (k + 1) ∧
      s'.loops = s.loops ∧ s'.baseLoop = s.baseLoop := by
  by_cases hloops : s.loops = []
  · refine ⟨s, ?_, ⟨?_, fun hne => absurd hloops hne, h.threads⟩, rfl, rfl⟩
    · rw [turn_base hloops]
      exact getNextLoop_base hstarted hloops
    · intro hnot
      rw [hstarted] at hnot
      cases hnot
  · have hlt := h.next_lt hloops
    obtain ⟨hnum, hmod⟩ := (agrees_iff hlt).1 (hagree hloops)
    refine ⟨{ s with next := (s.next + 1) % s.numThreads }, ?_, ⟨?_, ?_, h.threads⟩, rfl, rfl⟩
    · rw [turn_eq (h.position hloops) hlt]
      exact getNextLoop_apply hstarted hlt hnum
    · intro hnot
      rw [hstarted] at hnot
      cases hnot
    · intro _
      show (s.next + 1) % s.numThreads = (k + 1) % s.loops.length
      rw [hmod, h.position hloops, Nat.mod_add_mod]

/-- **The first disagreement** makes the call fail, or the next one take a loop out of turn. -/
theorem InTurn.getNextLoop_out {k : ℕ} (h : s.InTurn k) (hstarted : s.started = true)
    (hloops : s.loops ≠ []) (hdiffer : ¬s.Agrees) :
    (EventLoopThreadPool.getNextLoop s).val ≠ .ok () ∨
      (EventLoopThreadPool.getNextLoop (EventLoopThreadPool.getNextLoop s).state).trace ≠
        [s.turn (k + 1)] := by
  have hlt := h.next_lt hloops
  rw [agrees_iff hlt] at hdiffer
  by_cases hnum : s.numThreads = 0
  · left
    rw [getNextLoop_zero hstarted hlt hnum]
    exact nofun
  · right
    have hturn : (s.next + 1) % s.loops.length = (k + 1) % s.loops.length := by
      rw [h.position hloops, Nat.mod_add_mod]
    have hmod : (s.next + 1) % s.numThreads ≠ (k + 1) % s.loops.length := by
      rw [← hturn]
      exact fun heq => hdiffer ⟨hnum, heq⟩
    rw [getNextLoop_apply hstarted hlt hnum]
    let s' : EventLoopThreadPool := { s with next := (s.next + 1) % s.numThreads }
    have hstarted' : s'.started = true := hstarted
    show (EventLoopThreadPool.getNextLoop s').trace ≠ _
    by_cases hrange : s'.next < s'.loops.length
    · have hk : (k + 1) % s.loops.length < s.loops.length :=
        Nat.mod_lt _ (List.length_pos_iff.2 hloops)
      rw [getNextLoop_apply hstarted' hrange hnum, turn, List.getD_eq_getElem _ _ hk]
      intro heq
      exact hmod ((List.Nodup.getElem_inj_iff h.nodup).1 (List.singleton_inj.1 heq))
    · rw [getNextLoop_outOfRange hstarted' hloops (Nat.not_lt.1 hrange)]
      exact nofun

end EventLoopThreadPool

/-- Whoever asks for a loop of the pool finds its numbers to agree. -/
def LoopPoolOp.InStep (s : EventLoopThreadPool) (op : LoopPoolOp) : Prop :=
  op = .getNextLoop → s.loops ≠ [] → s.Agrees

instance (s : EventLoopThreadPool) (op : LoopPoolOp) : Decidable (op.InStep s) :=
  inferInstanceAs (Decidable (_ → _ → _))

/-- Setting the number changes no turn. -/
theorem EventLoopThreadPool.InTurn.setThreadNum {s : EventLoopThreadPool} {k : ℕ} (h : s.InTurn k)
    (numThreads : ℕ) : InTurn { s with numThreads := numThreads } k :=
  ⟨h.before, h.position, h.threads⟩

/-- **One call**: it returns, and gives the loop whose turn it is if it gives one. -/
theorem LoopPoolOp.exec_spec {s : EventLoopThreadPool} {k : ℕ} (h : s.InTurn k) {op : LoopPoolOp}
    (hallowed : op.Allowed s) (hstep : op.InStep s) :
    ∃ s' es, op.exec s = ⟨.ok (), s', es⟩ ∧ s'.InTurn (k + es.length) ∧
      (∀ i < k, s'.turn i = s.turn i) ∧ (es = [] ∨ es = [s'.turn k]) := by
  cases op with
  | setThreadNum numThreads =>
    exact ⟨_, [], rfl, h.setThreadNum numThreads, fun _ _ => rfl, .inl rfl⟩
  | serverSetThreadNum numThreads =>
    have hpos : 0 ≤ numThreads := hallowed
    refine ⟨_, [], ?_, h.setThreadNum numThreads.toNat, fun _ _ => rfl, .inl rfl⟩
    rw [exec, TcpServer.setThreadNum, Act.check_pos _ hpos]
    rfl
  | start =>
    have hnot : s.started = false := hallowed
    obtain ⟨hloops, rfl, hnext⟩ := h.before hnot
    refine ⟨{ s with started := true, loops := s.loops ++ (List.range s.numThreads).map .thread },
      [], ?_, ⟨nofun, ?_, s.numThreads, ?_⟩, ?_, .inl rfl⟩
    · rw [exec, EventLoopThreadPool.start, Act.get_bind, Act.check_pos _ hnot]
      rfl
    · intro _
      exact hnext.trans (Nat.zero_mod _).symm
    · show s.loops ++ _ = _
      rw [hloops, List.nil_append]
    · omega
  | getNextLoop =>
    obtain ⟨s', hs', hturn, hloops, hbase⟩ := h.getNextLoop hallowed (hstep rfl)
    have hsame : ∀ i, s'.turn i = s.turn i := fun i => by
      rw [EventLoopThreadPool.turn, EventLoopThreadPool.turn, hloops, hbase]
    exact ⟨s', [s.turn k], hs', hturn, fun i _ => hsame i, .inr (by rw [hsame])⟩

/-! ## Any run -/

section Runs

variable {calls : List LoopPoolCall} {s : EventLoopThreadPool}

/-- After a run in which every call finds the numbers to agree. -/
theorem inTurn_of_run
    (h : Run LoopPoolOp.exec (fun _ call => call.input.Allowed call.before ∧
      call.input.InStep call.before) EventLoopThreadPool.init calls s) :
    s.InTurn (traceOf calls).length ∧
      traceOf calls = (List.range (traceOf calls).length).map s.turn := by
  refine h.invariant (I := fun calls s => s.InTurn (traceOf calls).length ∧
    traceOf calls = (List.range (traceOf calls).length).map s.turn) ?_ ?_
  · exact ⟨⟨fun _ => ⟨rfl, rfl, rfl⟩, fun hne => absurd rfl hne, 0, rfl⟩, rfl⟩
  rintro calls s op ⟨hturn, htrace⟩ ⟨hallowed, hstep⟩ -
  obtain ⟨s', es, hexec, hturn', hsame, hes⟩ := LoopPoolOp.exec_spec (s := s) hturn hallowed hstep
  have hexec' : op.exec s = ⟨.ok (), s', es⟩ := hexec
  rw [traceOf_append, traceOf_singleton, Call.make_outcome, hexec', List.length_append]
  refine ⟨hturn', ?_⟩
  -- the loops given before are still the ones whose turn it was
  have hbefore : (List.range (traceOf calls).length).map s'.turn = traceOf calls := by
    rw [htrace, List.length_map, List.length_range]
    exact List.map_congr_left fun i hi => hsame i (List.mem_range.1 hi)
  rcases hes with rfl | rfl
  · show traceOf calls ++ [] = (List.range ((traceOf calls).length + 0)).map s'.turn
    rw [List.append_nil, Nat.add_zero, hbefore]
  · show traceOf calls ++ _ = (List.range ((traceOf calls).length + 1)).map s'.turn
    rw [List.range_succ, List.map_append, hbefore]
    rfl

/-- **When the loops are taken in turn.** In every run of a pool that is started once, with the
number of its threads set at any time, in which each call for a loop finds `numThreads_` to agree
with the number of loops: the `i`-th call gave the `i`-th loop modulo the number of loops, or the
base loop if there are none; the position is in range; no further such call fails. A call that
finds the two to differ fails, or makes the next one take a loop out of turn. -/
theorem loops_in_turn
    (h : Run LoopPoolOp.exec (fun _ call => call.input.Allowed call.before ∧
      call.input.InStep call.before) EventLoopThreadPool.init calls s) :
    traceOf calls = (List.range (traceOf calls).length).map s.turn ∧
      (s.loops ≠ [] → s.next < s.loops.length) ∧
      (∀ op : LoopPoolOp, op.Allowed s → op.InStep s → (op.exec s).val = .ok ()) ∧
      (s.started = true → s.loops ≠ [] → ¬s.Agrees →
        (LoopPoolOp.getNextLoop.exec s).val ≠ .ok () ∨
          (LoopPoolOp.getNextLoop.exec (LoopPoolOp.getNextLoop.exec s).state).trace ≠
            [s.turn ((traceOf calls).length + 1)]) := by
  obtain ⟨hturn, htrace⟩ := inTurn_of_run h
  refine ⟨htrace, hturn.next_lt, ?_, hturn.getNextLoop_out⟩
  intro op hallowed hstep
  obtain ⟨s', es, hexec, -⟩ := LoopPoolOp.exec_spec hturn hallowed hstep
  rw [hexec]

end Runs

/-- Three calls on a pool of two loops, the number set to a multiple before the second. -/
theorem loops_in_turn_of_two :
    ∃ calls s, Run LoopPoolOp.exec (fun _ call => call.input.Allowed call.before ∧
        call.input.InStep call.before) EventLoopThreadPool.init calls s ∧
      (traceOf calls = (List.range (traceOf calls).length).map s.turn ∧
        (s.loops ≠ [] → s.next < s.loops.length) ∧
        (∀ op : LoopPoolOp, op.Allowed s → op.InStep s → (op.exec s).val = .ok ()) ∧
        (s.started = true → s.loops ≠ [] → ¬s.Agrees →
          (LoopPoolOp.getNextLoop.exec s).val ≠ .ok () ∨
            (LoopPoolOp.getNextLoop.exec (LoopPoolOp.getNextLoop.exec s).state).trace ≠
              [s.turn ((traceOf calls).length + 1)])) ∧
      traceOf calls = [.thread 0, .thread 1, .thread 0] := by
  have hrun : Run LoopPoolOp.exec (fun _ call => call.input.Allowed call.before ∧
      call.input.InStep call.before) EventLoopThreadPool.init _ _ :=
    run_replay [.serverSetThreadNum 2, .start, .getNextLoop, .setThreadNum 2, .getNextLoop,
      .getNextLoop] (by decide +kernel)
  exact ⟨_, _, hrun, loops_in_turn hrun, by decide +kernel⟩

/-- The number is set after the start: to zero, and the next call takes a remainder by zero; from
one to two, and the second call reaches beyond the loops. -/
theorem loops_out_of_turn :
    (∃ calls s, Run LoopPoolOp.exec (fun _ call => call.input.Allowed call.before)
        EventLoopThreadPool.init calls s ∧ LoopPoolOp.getNextLoop.Allowed s ∧
      (LoopPoolOp.getNextLoop.exec s).val = .error .remainderByZero) ∧
    ∃ calls s, Run LoopPoolOp.exec (fun _ call => call.input.Allowed call.before)
        EventLoopThreadPool.init calls s ∧ LoopPoolOp.getNextLoop.Allowed s ∧
      (LoopPoolOp.getNextLoop.exec s).val = .error .outOfRange := by
  have hzero : Run LoopPoolOp.exec (fun _ call => call.input.Allowed call.before)
      EventLoopThreadPool.init _ _ :=
    run_replay [.setThreadNum 2, .start, .setThreadNum 0] (by decide +kernel)
  have htwo : Run LoopPoolOp.exec (fun _ call => call.input.Allowed call.before)
      EventLoopThreadPool.init _ _ :=
    run_replay [.setThreadNum 1, .start, .setThreadNum 2, .getNextLoop] (by decide +kernel)
  exact ⟨⟨_, _, hzero, by decide, by decide⟩, _, _, htwo, by decide, by decide⟩

end Cannet.Net
