import Cannet.Base.ThreadSafeQueue.Steps
import Cannet.Foundations.Linked
import Mathlib.Data.List.Nodup
import Mathlib.Data.Option.Basic

/-!
# First in, first out

`Chain s nodes vals` says that `nodes` lead from `head_` to `tail_` and hold `vals`, and that
`*tail_` is unused. A push makes the unused node the last of them; it writes to no other one, so
what a consumer found out about the first of them under `headMutex_` stays true until it has removed
that one. `Fifo` adds the history: what was pushed is what was popped, followed by `vals`.
-/

namespace Cannet.Base

open Foundations

variable {α κ : Type}

/-- What a consumer knows of the values in the queue. -/
def Consumer.Relies (vals : List α) : Consumer α → Prop
  | found _ => vals ≠ []
  | moved x => vals.head? = some x
  | _ => True

theorem Consumer.Relies.of_outside {c : Consumer α} {vals : List α} (h : c.holds = false) :
    c.Relies vals := by
  cases c with
  | found p => cases h
  | moved x => cases h
  | _ => trivial

theorem Consumer.Relies.push {c : Consumer α} {vals : List α} (h : c.Relies vals) (x : α) :
    c.Relies (vals ++ [x]) := by
  cases c with
  | found p => exact List.append_ne_nil_of_left_ne_nil h _
  | moved y =>
    obtain ⟨rest, rfl⟩ := List.head?_eq_some_iff.1 h
    exact rfl
  | _ => trivial

/-- The values pushed. -/
def pushedOf (es : List (QueueEvent α)) : List α :=
  es.filterMap fun
    | .pushed x => some x
    | _ => none

/-- What the removed nodes held. -/
def poppedOf (es : List (QueueEvent α)) : List (Option α) :=
  es.filterMap fun
    | .popped val => some val
    | _ => none

theorem pushedOf_append (es es' : List (QueueEvent α)) :
    pushedOf (es ++ es') = pushedOf es ++ pushedOf es' := List.filterMap_append

theorem poppedOf_append (es es' : List (QueueEvent α)) :
    poppedOf (es ++ es') = poppedOf es ++ poppedOf es' := List.filterMap_append

/-! ## The chain -/

structure Chain (heap : Store (Node α)) (head : Option ℕ) (tail : ℕ) (nodes : List ℕ)
    (vals : List α) : Prop where
  linked : ∃ h, head = some h ∧ Linked (fun i => (heap.get i).next) h nodes tail
  holds : nodes.map (fun i => (heap.get i).val) = vals.map some
  unused : heap.get tail = ⟨none, none⟩
  distinct : (nodes ++ [tail]).Nodup
  made : ∀ i ∈ nodes ++ [tail], i < heap.made

namespace Chain

variable {heap : Store (Node α)} {head : Option ℕ} {tail : ℕ} {nodes : List ℕ} {vals : List α}

theorem tail_notMem (h : Chain heap head tail nodes vals) : tail ∉ nodes := fun hmem =>
  (List.nodup_append.1 h.distinct).2.2 _ hmem _ List.mem_cons_self rfl

/-- The queue is empty when `head_` is `tail_`. -/
theorem head_eq_tail_iff (h : Chain heap head tail nodes vals) : head = some tail ↔ vals = [] := by
  obtain ⟨i, hhead, hlinked⟩ := h.linked
  have hnil : vals = [] ↔ nodes = [] := by
    rw [← List.map_eq_nil_iff (f := some), ← h.holds, List.map_eq_nil_iff]
  rw [hnil, hlinked.eq_nil_iff h.tail_notMem, hhead, Option.some.injEq]

/-- The first node holds the first value. -/
theorem first {x : α} (h : Chain heap head tail nodes vals) (hx : vals.head? = some x) :
    ∃ i rest, nodes = i :: rest ∧ head = some i ∧ (heap.get i).val = some x := by
  obtain ⟨i, hhead, hlinked⟩ := h.linked
  obtain ⟨tl, rfl⟩ := List.head?_eq_some_iff.1 hx
  obtain ⟨j, rest, rfl, hj, -⟩ := List.map_eq_cons_iff.1 h.holds
  obtain ⟨rfl, -⟩ := hlinked.uncons
  exact ⟨j, rest, rfl, hhead, hj⟩

/-- **A push** fills the unused node and links a new one. -/
theorem push (h : Chain heap head tail nodes vals) (x : α) :
    Chain ((heap.alloc ⟨none, none⟩).set tail ⟨some x, some heap.made⟩) head heap.made
      (nodes ++ [tail]) (vals ++ [x]) := by
  have htail : tail < heap.made := h.made tail (List.mem_append_right _ List.mem_cons_self)
  have hfresh : heap.made ∉ nodes ++ [tail] := fun hmem => Nat.lt_irrefl _ (h.made _ hmem)
  have hsame : ∀ i ∈ nodes,
      ((heap.alloc ⟨none, none⟩).set tail ⟨some x, some heap.made⟩).get i = heap.get i := by
    intro i hi
    rw [Store.get_set_of_ne _ (ne_of_mem_of_not_mem hi h.tail_notMem)]
    exact Store.get_alloc_of_lt _ (h.made i (List.mem_append_left _ hi))
  refine ⟨?_, ?_, ?_, ?_, ?_⟩
  · obtain ⟨i, hhead, hlinked⟩ := h.linked
    refine ⟨i, hhead, .snoc (hlinked.congr fun k hk => ?_) ?_⟩
    · rw [hsame k hk]
    · rw [Store.get_set_self]
  · rw [List.map_append, List.map_append, ← h.holds]
    congr 1
    · exact List.map_congr_left fun i hi => congrArg Node.val (hsame i hi)
    · simp
  · rw [Store.get_set_of_ne _ (Nat.ne_of_gt htail), Store.get_alloc_self]
  · refine List.nodup_append.2 ⟨h.distinct, List.pairwise_singleton _ _, fun a ha b hb => ?_⟩
    rw [List.mem_singleton.1 hb]
    exact ne_of_mem_of_not_mem ha hfresh
  · intro i hi
    rw [Store.made_set, Store.made_alloc]
    rcases List.mem_append.1 hi with hi | hi
    · exact Nat.lt_succ_of_lt (h.made i hi)
    · rw [List.mem_singleton.1 hi]
      exact Nat.lt_succ_self _

/-- **A pop** leaves the rest of the chain. -/
theorem pop {i : ℕ} {rest : List ℕ} {x : α} {tl : List α} (v : Option α)
    (h : Chain heap head tail (i :: rest) (x :: tl)) :
    Chain (heap.set i ⟨v, none⟩) (heap.get i).next tail rest tl := by
  obtain ⟨hi, hdistinct⟩ := List.nodup_cons.1 h.distinct
  have hsame : ∀ j ∈ rest ++ [tail], (heap.set i ⟨v, none⟩).get j = heap.get j := fun j hj =>
    Store.get_set_of_ne _ (ne_of_mem_of_not_mem hj hi)
  refine ⟨?_, ?_, ?_, hdistinct, fun j hj => h.made j (List.mem_cons_of_mem _ hj)⟩
  · obtain ⟨j, -, hlinked⟩ := h.linked
    obtain ⟨rfl, k, hnext, hlinked⟩ := hlinked.uncons
    refine ⟨k, hnext, hlinked.congr fun k hk => ?_⟩
    rw [hsame k (List.mem_append_left _ hk)]
  · rw [← (List.cons.inj h.holds).2]
    exact List.map_congr_left fun j hj =>
      congrArg Node.val (hsame j (List.mem_append_left _ hj))
  · rw [hsame tail (List.mem_append_right _ List.mem_cons_self)]
    exact h.unused

/-- Every node before the last has a value and a successor. -/
theorem filled (h : Chain heap head tail nodes vals) {i : ℕ} (hi : i ∈ nodes) :
    (heap.get i).val.isSome = true ∧ (heap.get i).next.isSome = true := by
  refine ⟨?_, ?_⟩
  · have hmem : (heap.get i).val ∈ vals.map some := by
      rw [← h.holds]
      exact List.mem_map_of_mem hi
    obtain ⟨x, -, hx⟩ := List.mem_map.1 hmem
    rw [← hx, Option.isSome_some]
  · obtain ⟨_, -, hlinked⟩ := h.linked
    exact hlinked.next_isSome i hi

end Chain

/-! ## The queue -/

namespace ThreadSafeQueue

/-- What was done (`es`) and what is in the queue. -/
structure Fifo (es : List (QueueEvent α)) (s : ThreadSafeQueue α κ) (nodes : List ℕ)
    (vals : List α) : Prop where
  owned : Excludes s.headMutex s.consumer Consumer.holds
  chain : Chain s.heap s.head s.tail nodes vals
  relies : ∀ c, (s.consumer c).Relies vals
  order : (pushedOf es).map some = poppedOf es ++ vals.map some

theorem init_fifo : Fifo [] (init : ThreadSafeQueue α κ) [] [] where
  owned c := iff_of_false Bool.false_ne_true nofun
  chain :=
    { linked := ⟨0, rfl, .nil 0⟩
      holds := rfl
      unused := rfl
      distinct := List.pairwise_singleton _ _
      made := fun i hi => by
        rw [List.mem_singleton.1 hi]
        exact Nat.one_pos }
  relies c := trivial
  order := rfl

namespace Fifo

variable {es es' : List (QueueEvent α)} {s s' : ThreadSafeQueue α κ} {nodes : List ℕ}
  {vals : List α} {c : κ}

/-- A consumer finds the queue empty when everything pushed has been popped. -/
theorem popped_all (h : Fifo es s nodes vals) (hempty : s.head = some s.tail) :
    poppedOf es = (pushedOf es).map some := by
  rw [h.order, h.chain.head_eq_tail_iff.1 hempty, List.map_nil, List.append_nil]

/-- A consumer that has found a value finds it again. -/
theorem first_of_found {p : Pop} (h : Fifo es s nodes vals) (hc : s.consumer c = .found p) :
    ∃ x, vals.head? = some x := by
  have hrelies := h.relies c
  rw [hc] at hrelies
  exact Option.isSome_iff_exists.1 (List.isSome_head?.2 hrelies)

theorem first_of_moved {x : α} (h : Fifo es s nodes vals) (hc : s.consumer c = .moved x) :
    vals.head? = some x := by
  have hrelies := h.relies c
  rwa [hc] at hrelies

theorem push (h : Fifo es s nodes vals) (x : α) :
    Fifo (es ++ [.pushed x]) (s.pushed x) (nodes ++ [s.tail]) (vals ++ [x]) where
  owned := h.owned
  chain := h.chain.push x
  relies c := (h.relies c).push x
  order := by
    rw [pushedOf_append, poppedOf_append, List.map_append, List.map_append, h.order]
    simp [pushedOf, poppedOf]

variable [DecidableEq κ] {state : Consumer α}

theorem relies_update (h : Fifo es s nodes vals) (hstate : state.Relies vals) :
    ∀ d, (Function.update s.consumer c state d).Relies vals := by
  intro d
  by_cases hd : d = c
  · rwa [hd, Function.update_self]
  · rw [Function.update_of_ne hd]
    exact h.relies d

/-- The consumer that holds `headMutex_` removes the first node. -/
theorem pop {x : α} (h : Fifo es s nodes vals) (hc : (s.consumer c).holds = true)
    (hx : vals.head? = some x) :
    ∃ i rest, s.head = some i ∧ s.val i = some x ∧
      Fifo (es ++ [.popped (some x)]) (s.removed c i) rest vals.tail := by
  obtain ⟨i, rest, rfl, hhead, hval⟩ := h.chain.first hx
  obtain ⟨tl, rfl⟩ := List.head?_eq_some_iff.1 hx
  have howned := h.owned.leave hc (b := .idle) rfl
  refine ⟨i, rest, hhead, hval, howned, h.chain.pop _, fun d => ?_, ?_⟩
  · exact .of_outside (howned.outside d)
  · rw [pushedOf_append, poppedOf_append, List.map_append, h.order]
    simp [pushedOf, poppedOf]

/-- A step of one consumer that pushes and pops nothing. -/
theorem quiet {owner : Option κ} {waiters : List κ} {notifies : ℕ}
    (h : Fifo es s nodes vals) (hpush : pushedOf es' = []) (hpop : poppedOf es' = [])
    (howned : Excludes owner (Function.update s.consumer c state) Consumer.holds)
    (hstate : state.Relies vals) :
    Fifo (es ++ es') { s with
      headMutex := owner
      waiters := waiters
      notifies := notifies
      consumer := Function.update s.consumer c state } nodes vals where
  owned := howned
  chain := h.chain
  relies := h.relies_update hstate
  order := by
    rw [pushedOf_append, poppedOf_append, hpush, hpop, List.append_nil, List.append_nil, h.order]

/-- **A step keeps the order.** -/
theorem step {op : QueueOp α κ} (h : Fifo es s nodes vals) (hstep : Stepped s op es' s') :
    ∃ nodes' vals', Fifo (es ++ es') s' nodes' vals' := by
  have howned := hstep.owned h.owned
  cases hstep with
  | push x => exact ⟨_, _, h.push x⟩
  | notifyNobody hpos hnone =>
    refine ⟨nodes, vals, h.owned, h.chain, h.relies, ?_⟩
    rw [List.append_nil]
    exact h.order
  | notify | lock | miss | refuse | block | wakeUp | relock =>
    exact ⟨nodes, vals, h.quiet rfl rfl howned trivial⟩
  | find hc hsome =>
    exact ⟨nodes, vals,
      h.quiet rfl rfl howned fun hnil => hsome (h.chain.head_eq_tail_iff.2 hnil)⟩
  | moveOut hc hhead hx =>
    obtain ⟨x, hfirst⟩ := h.first_of_found hc
    obtain ⟨j, rest, -, hj, hval⟩ := h.chain.first hfirst
    obtain rfl := Option.some.inj (hj.symm.trans hhead)
    obtain rfl := Option.some.inj (hval.symm.trans hx)
    exact ⟨nodes, vals, h.quiet rfl rfl howned hfirst⟩
  | popMoved hc hhead =>
    obtain ⟨j, rest, hj, -, hfifo⟩ := h.pop (by rw [hc]; rfl) (h.first_of_moved hc)
    obtain rfl := Option.some.inj (hj.symm.trans hhead)
    exact ⟨_, _, hfifo⟩
  | popFound hc hhead =>
    obtain ⟨x, hfirst⟩ := h.first_of_found hc
    obtain ⟨j, rest, hj, hval, hfifo⟩ := h.pop (by rw [hc]; rfl) hfirst
    obtain rfl := Option.some.inj (hj.symm.trans hhead)
    rw [hval]
    exact ⟨_, _, hfifo⟩

/-- `popHead` finds a node, and `moveOut` a value in it. -/
theorem not_fails (h : Fifo es s nodes vals) (op : QueueOp α κ) (fault : QueueFault) :
    (op.exec s).val ≠ .error (.fails fault) := by
  intro hval
  rcases failed hval with hnone | ⟨c, p, i, hc, hi, hnone⟩
  · obtain ⟨i, hhead, -⟩ := h.chain.linked
    rw [hhead] at hnone
    cases hnone
  · obtain ⟨x, hfirst⟩ := h.first_of_found hc
    obtain ⟨j, rest, -, hj, hx⟩ := h.chain.first hfirst
    obtain rfl := Option.some.inj (hj.symm.trans hi)
    exact absurd (hx.symm.trans hnone) nofun

end Fifo

/-- `tryPop` refuses only when it found the queue empty. -/
theorem Stepped.empty [DecidableEq κ] {s s' : ThreadSafeQueue α κ} {op : QueueOp α κ}
    {es : List (QueueEvent α)} (h : Stepped s op es s') (hes : .empty ∈ es) :
    s.head = some s.tail := by
  cases h with
  | refuse hc hempty hwaits => exact hempty
  | _ => simp at hes

/-- The chain from `head_` ends at `tail_`, which is unused; every earlier node has a value and a
successor. -/
def EndsAtTail (s : ThreadSafeQueue α κ) : Prop :=
  ∃ first nodes, s.head = some first ∧ Linked s.next first nodes s.tail ∧
    (∀ i ∈ nodes, (s.val i).isSome = true ∧ (s.next i).isSome = true) ∧
    s.val s.tail = none ∧ s.next s.tail = none

theorem Fifo.endsAtTail {es : List (QueueEvent α)} {s : ThreadSafeQueue α κ} {nodes : List ℕ}
    {vals : List α} (h : Fifo es s nodes vals) : s.EndsAtTail := by
  obtain ⟨first, hhead, hlinked⟩ := h.chain.linked
  refine ⟨first, nodes, hhead, hlinked, fun i hi => h.chain.filled hi, ?_, ?_⟩
  · rw [val, h.chain.unused]
  · rw [next, h.chain.unused]

variable [DecidableEq κ] {calls : List (QueueCall α κ)} {s : ThreadSafeQueue α κ}

/-- The order is kept in every run. -/
theorem run_fifo (h : Run QueueOp.exec (fun _ _ => True) init calls s) :
    ∃ nodes vals, Fifo (traceOf calls) s nodes vals := by
  refine h.invariant (I := fun calls s => ∃ nodes vals, Fifo (traceOf calls) s nodes vals)
    ⟨[], [], init_fifo⟩ fun calls s op hfifo _ hok => ?_
  obtain ⟨nodes, vals, hfifo⟩ := hfifo
  rw [traceOf_append, traceOf_singleton]
  exact hfifo.step (stepped hok)

/-- **The queue is first in, first out**: whatever the order of the threads' steps, the values
popped are the first of those pushed, each of them popped once; `tryPop` refuses only when all of
them have been popped; the chain of nodes is always whole, and no step reads a value or a node that
is not there. -/
theorem first_in_first_out (h : Run QueueOp.exec (fun _ _ => True) init calls s) :
    poppedOf (traceOf calls) <+: (pushedOf (traceOf calls)).map some ∧
      ((pushedOf (traceOf calls)).Nodup → (poppedOf (traceOf calls)).Nodup) ∧
      (∀ op : QueueOp α κ, (op.exec s).val = .ok () → .empty ∈ (op.exec s).trace →
        s.head = some s.tail ∧
          poppedOf (traceOf calls) = (pushedOf (traceOf calls)).map some) ∧
      s.EndsAtTail ∧
      ∀ (op : QueueOp α κ) (fault : QueueFault), (op.exec s).val ≠ .error (.fails fault) := by
  obtain ⟨nodes, vals, hfifo⟩ := run_fifo h
  have hfirst : poppedOf (traceOf calls) <+: (pushedOf (traceOf calls)).map some :=
    ⟨vals.map some, hfifo.order.symm⟩
  refine ⟨hfirst, fun hnodup => ?_, fun op hok hempty => ?_, hfifo.endsAtTail, hfifo.not_fails⟩
  · exact (hnodup.map (Option.some_injective α)).sublist hfirst.sublist
  · have hhead := (stepped hok).empty hempty
    exact ⟨hhead, hfifo.popped_all hhead⟩

/-- Two consumers, one of which waits, while two values are pushed. -/
theorem first_in_first_out_of_two :
    ∃ (calls : List (QueueCall ℕ Bool)) (s : ThreadSafeQueue ℕ Bool),
      Run QueueOp.exec (fun _ _ => True) init calls s ∧
        poppedOf (traceOf calls) = [some 3] ∧ pushedOf (traceOf calls) = [3, 4] ∧
        s.EndsAtTail := by
  have hrun : Run (QueueOp.exec (α := ℕ) (κ := Bool)) (fun _ _ => True) init _ _ :=
    run_replay
      [.lock true ⟨true, true⟩, .compare true, .block true, .push 3, .notifyOne (some true),
        .relock true, .compare true, .push 4, .moveOut true, .popHead true, .notifyOne none,
        .lock false ⟨false, false⟩] (by decide +kernel)
  exact ⟨_, _, hrun, by decide +kernel, by decide +kernel, (first_in_first_out hrun).2.2.2.1⟩

end ThreadSafeQueue

end Cannet.Base
