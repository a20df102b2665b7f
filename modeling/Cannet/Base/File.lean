import Cannet.Foundations.Loop
import Mathlib.Algebra.Order.BigOperators.Group.Finset
import Mathlib.Algebra.BigOperators.Intervals

/-!
# Appending to a file

`AppendFile::append` of `FileUtil.cpp` and `WriteFile::append` of `File.cpp`, which call
`fwrite_unlocked` until it has taken the whole block or nothing. What the calls return is given in
advance, and the loops are cut off after a number of rounds; they end before it if that is more
than the block is long.
-/

namespace Cannet.Base

open Foundations

variable {β : Type}

/-- A block of data, with what `fwrite_unlocked` and `ferror` return while it is appended. -/
structure Block (β : Type) where
  log_ : List β
  /-- How many bytes the calls take, by their number; a call takes no more than it is asked to. -/
  results : ℕ → ℕ
  err : Bool

inductive FileEffect
  | fwrite (requested taken : ℕ)
  | fprintf (text : String)
  deriving DecidableEq, Repr

/-- An append under way. -/
structure Appending (β : Type) where
  /-- What the stream has accepted since it was opened. -/
  fp_ : List β
  results : ℕ → ℕ
  n : ℕ
  remain : ℕ

/-- A call of one of the files; none of them fails. -/
abbrev FileAct (σ α : Type) := Act Empty FileEffect σ α

/-- `write(log_ + n, remain)`. -/
def Appending.write (log_ : List β) : FileAct (Appending β) ℕ := do
  let s ← Act.get
  let x := min (s.results 0) s.remain
  Act.modify fun s => { s with
    fp_ := s.fp_ ++ (log_.drop s.n).take x
    results := fun i => s.results (i + 1) }
  Act.emit (.fwrite s.remain x)
  pure x

/-- The body of both loops; whether it breaks. -/
def appendStep (message : String) (b : Block β) : FileAct (Appending β) Bool := do
  let x ← Appending.write b.log_
  if x = 0 then
    if b.err then
      Act.emit (.fprintf message)
    pure true
  else
    Act.modify fun s => { s with n := s.n + x, remain := b.log_.length - (s.n + x) }
    pure false

/-- `AppendFile`; of its stream, the bytes accepted since it was opened. -/
structure AppendFile (β : Type) where
  fp_ : List β

namespace AppendFile

/-- `while (remain > 0)`; whether the loop is over. -/
def round (b : Block β) : FileAct (Appending β) Bool := do
  let s ← Act.get
  if 0 < s.remain then appendStep "AppendFile::append() failed \n" b else pure true

def appendLoop (b : Block β) (rounds : ℕ) : FileAct (Appending β) Bool := do
  let n ← Appending.write b.log_
  Act.modify fun s => { s with n := n, remain := b.log_.length - n }
  Act.loop (round b) rounds

/-- Whether it returned before it was cut off. -/
def append (b : Block β) (rounds : ℕ) : FileAct (AppendFile β) Bool :=
  Act.zoom (fun f => ⟨f.fp_, b.results, 0, b.log_.length⟩) (fun s f => { f with fp_ := s.fp_ })
    (appendLoop b rounds)

end AppendFile

/-- `WriteFile`, likewise. -/
structure WriteFile (β : Type) where
  fp_ : List β
  writeLen_ : ℕ

namespace WriteFile

/-- A file just opened. -/
def opened : WriteFile β := ⟨[], 0⟩

/-- `do … while (remain > 0)`; whether the loop is over. -/
def round (b : Block β) : FileAct (Appending β) Bool := do
  if ← appendStep "WriteFile error" b then
    pure true
  else
    let s ← Act.get
    pure (decide ¬0 < s.remain)

/-- Whether it returned before it was cut off. -/
def append (b : Block β) (rounds : ℕ) : FileAct (WriteFile β) Bool := do
  let ended ← Act.zoom (fun f => ⟨f.fp_, b.results, 0, b.log_.length⟩)
    (fun s f => { f with fp_ := s.fp_ }) (Act.loop (round b) rounds)
  if ended then
    Act.modify fun f => { f with writeLen_ := f.writeLen_ + b.log_.length }
  pure ended

/-- Blocks appended one after another. -/
def appendAll (rounds : ℕ) : List (Block β) → FileAct (WriteFile β) Bool
  | [] => pure true
  | b :: bs => do
    if ← append b rounds then appendAll rounds bs else pure false

def writeLen (f : WriteFile β) : ℕ := f.writeLen_

end WriteFile

/-! ## What is accepted -/

/-- The first `n` bytes of the block have been accepted behind what was there `before`. -/
structure Appending.Within (log_ before : List β) (s : Appending β) : Prop where
  accepted : s.fp_ = before ++ log_.take s.n
  le : s.n ≤ log_.length
  rest : s.remain = log_.length - s.n

variable {b : Block β} {before : List β} {s : Appending β}

theorem Appending.write_spec (h : s.Within b.log_ before) :
    ∃ s' : Appending β, write b.log_ s =
        ⟨.ok (min (s.results 0) s.remain), s', [.fwrite s.remain (min (s.results 0) s.remain)]⟩ ∧
      s'.fp_ = before ++ b.log_.take (s.n + min (s.results 0) s.remain) ∧
      s'.n = s.n ∧ s'.remain = s.remain ∧ s'.results = fun i => s.results (i + 1) := by
  refine ⟨_, rfl, ?_, rfl, rfl, rfl⟩
  show s.fp_ ++ (b.log_.drop s.n).take _ = _
  rw [h.accepted, List.append_assoc, List.take_add]

/-- **One pass of a loop** takes a part of what remains, and breaks if it takes nothing. -/
theorem appendStep_spec (message : String) (h : s.Within b.log_ before) :
    ∃ s' es, appendStep message b s = ⟨.ok (decide (min (s.results 0) s.remain = 0)), s', es⟩ ∧
      s'.Within b.log_ before ∧ s'.n = s.n + min (s.results 0) s.remain ∧
      s'.results = (fun i => s.results (i + 1)) ∧
      .fwrite s.remain (min (s.results 0) s.remain) ∈ es := by
  obtain ⟨s₁, hwrite, hfp, hn, hremain, hresults⟩ := Appending.write_spec h
  have hle := h.le
  have hrest := h.rest
  rw [appendStep, Act.bind_ok hwrite]
  generalize hx : min (s.results 0) s.remain = x at *
  by_cases hzero : x = 0
  · have hwithin : s₁.Within b.log_ before :=
      ⟨by rw [hfp, hn, hzero, Nat.add_zero], by omega, by omega⟩
    simp only [hzero, if_true, decide_true]
    cases b.err with
    | true => exact ⟨s₁, _, rfl, hwithin, by omega, hresults, List.mem_cons_self⟩
    | false => exact ⟨s₁, _, rfl, hwithin, by omega, hresults, List.mem_cons_self⟩
  · simp only [if_neg hzero, decide_eq_false hzero]
    refine ⟨_, _, rfl, ⟨?_, ?_, rfl⟩, ?_, hresults, List.mem_cons_self⟩
    · show s₁.fp_ = before ++ b.log_.take (s₁.n + x)
      rw [hfp, hn]
    · show s₁.n + x ≤ _
      omega
    · show s₁.n + x = _
      rw [hn]

/-- What an append leaves: the stream has accepted a prefix of the block, all of it unless a call
that was asked to take something took nothing. -/
def Accepts (b : Block β) (before after : List β) (es : List FileEffect) : Prop :=
  ∃ n ≤ b.log_.length, after = before ++ b.log_.take n ∧
    (n < b.log_.length → ∃ requested, 0 < requested ∧ FileEffect.fwrite requested 0 ∈ es)

/-- The calls take the block before one of them takes nothing. -/
def Block.Taken (b : Block β) : Prop :=
  ∃ k, (∀ j < k, 0 < b.results j) ∧ b.log_.length ≤ ∑ j ∈ Finset.range k, b.results j

theorem Block.not_taken {k : ℕ} (hzero : b.results k = 0)
    (hsum : ∑ j ∈ Finset.range k, b.results j < b.log_.length) : ¬b.Taken := by
  rintro ⟨k', hpos, hsum'⟩
  by_cases hlt : k < k'
  · have hk := hpos k hlt
    omega
  · have hmono : ∑ j ∈ Finset.range k', b.results j ≤ ∑ j ∈ Finset.range k, b.results j :=
      Finset.sum_le_sum_of_subset (Finset.range_mono (by omega))
    omega

/-- Nothing is missing, or a call that should have taken something took nothing. -/
def Appending.Over (b : Block β) (before : List β) (es : List FileEffect) (s : Appending β) :
    Prop :=
  s.Within b.log_ before ∧
    (s.n < b.log_.length → ∃ requested, 0 < requested ∧ FileEffect.fwrite requested 0 ∈ es)

theorem Appending.Over.accepts {es : List FileEffect} (h : s.Over b before es) :
    Accepts b before s.fp_ es :=
  ⟨s.n, h.1.le, h.1.accepted, h.2⟩

namespace AppendFile

/-- **A round** breaks, or takes something, or finds that nothing remains. -/
theorem round_spec (h : s.Within b.log_ before) :
    (∃ s' es, round b s = ⟨.ok true, s', es⟩ ∧ s'.Over b before es) ∨
      ∃ s' es, round b s = ⟨.ok false, s', es⟩ ∧ s'.Within b.log_ before ∧
        s'.remain < s.remain := by
  have hrest := h.rest
  rw [round, Act.get_bind]
  by_cases hremain : 0 < s.remain
  · obtain ⟨s', es, hstep, hwithin, hn, -, hmem⟩ :=
      appendStep_spec "AppendFile::append() failed \n" h
    have hrest' := hwithin.rest
    rw [if_pos hremain, hstep]
    by_cases hzero : min (s.results 0) s.remain = 0
    · rw [hzero] at hmem
      exact .inl ⟨s', es, by rw [decide_eq_true hzero], hwithin, fun _ => ⟨_, hremain, hmem⟩⟩
    · exact .inr ⟨s', es, by rw [decide_eq_false hzero], hwithin, by omega⟩
  · rw [if_neg hremain]
    exact .inl ⟨s, [], rfl, h, fun hlt => absurd hlt (by omega)⟩

/-- **The loop ends**, however short the writes are. -/
theorem loop_spec (h : s.Within b.log_ before) :
    ∃ s' es, (∀ rounds > b.log_.length, Act.loop (round b) rounds s = ⟨.ok true, s', es⟩) ∧
      s'.Over b before es := by
  have hround : ∀ es s', s'.Within b.log_ before →
      (∃ s'' es', round b s' = ⟨.ok true, s'', es'⟩ ∧ s''.Over b before (es ++ es')) ∨
        ∃ s'' es', round b s' = ⟨.ok false, s'', es'⟩ ∧ s''.Within b.log_ before ∧
          s''.remain < s'.remain := by
    intro es s' hwithin
    obtain ⟨s'', es', hlast, hover, hmissing⟩ | hnext := round_spec hwithin
    · refine .inl ⟨s'', es', hlast, hover, fun hlt => ?_⟩
      obtain ⟨requested, hpos, hmem⟩ := hmissing hlt
      exact ⟨requested, hpos, List.mem_append_right _ hmem⟩
    · exact .inr hnext
  have hrest := h.rest
  obtain ⟨s', es, hloop, hover⟩ := Act.loop_ends
    (J := fun _ s' => s'.Within b.log_ before) (Q := fun es s' => s'.Over b before es)
    Appending.remain hround h (Nat.lt_succ_self _)
  exact ⟨s', es, fun rounds hrounds => Act.loop_le hloop (by omega), hover⟩

/-- **`AppendFile::append`** returns, and leaves a prefix of the block in the stream. -/
theorem append_spec (f : AppendFile β) (b : Block β) :
    ∃ f' es, (∀ rounds > b.log_.length, append b rounds f = ⟨.ok true, f', es⟩) ∧
      Accepts b f.fp_ f'.fp_ es := by
  have hwithin : Appending.Within b.log_ f.fp_ ⟨f.fp_, b.results, 0, b.log_.length⟩ :=
    ⟨by simp, Nat.zero_le _, rfl⟩
  obtain ⟨s₁, hwrite, hfp, -, -, -⟩ := Appending.write_spec hwithin
  generalize hx : min (b.results 0) b.log_.length = x at hwrite hfp
  have hwithin₁ : Appending.Within b.log_ f.fp_
      { s₁ with n := x, remain := b.log_.length - x } := by
    refine ⟨?_, ?_, rfl⟩
    · rw [Nat.zero_add] at hfp
      exact hfp
    · show x ≤ _
      omega
  obtain ⟨s', es, hloop, hover, hmissing⟩ := loop_spec hwithin₁
  refine ⟨{ f with fp_ := s'.fp_ }, .fwrite b.log_.length x :: es, fun rounds hrounds => ?_,
    s'.n, hover.le, hover.accepted, fun hlt => ?_⟩
  · have happend : appendLoop b rounds ⟨f.fp_, b.results, 0, b.log_.length⟩ =
        ⟨.ok true, s', .fwrite b.log_.length x :: es⟩ := by
      rw [appendLoop, Act.bind_ok hwrite]
      show ((Act.loop (round b) rounds _).after []).after _ = _
      rw [hloop rounds hrounds]
      rfl
    rw [append, Act.zoom, happend]
  · obtain ⟨requested, hpos, hmem⟩ := hmissing hlt
    exact ⟨requested, hpos, List.mem_cons_of_mem _ hmem⟩

end AppendFile

namespace WriteFile

/-- The calls made so far have each taken something, and between them what has been accepted. -/
def Counted (b : Block β) (s : Appending β) : Prop :=
  ∃ k, (∀ i, s.results i = b.results (i + k)) ∧ (∀ j < k, 0 < b.results j) ∧
    s.n = min b.log_.length (∑ j ∈ Finset.range k, b.results j)

/-- The whole block is accepted if the calls take it, and only then. -/
def Accounted (b : Block β) (before : List β) (es : List FileEffect) (s : Appending β) : Prop :=
  s.Over b before es ∧ (s.n = b.log_.length ↔ b.Taken)

theorem Counted.next (hwithin : s.Within b.log_ before) (h : Counted b s) {s' : Appending β}
    (hpos : min (s.results 0) s.remain ≠ 0)
    (hn : s'.n = s.n + min (s.results 0) s.remain)
    (hresults : s'.results = fun i => s.results (i + 1)) : Counted b s' := by
  obtain ⟨k, hs, hk, hsum⟩ := h
  have hrest := hwithin.rest
  have hresult : s.results 0 = b.results k := by rw [hs 0, Nat.zero_add]
  refine ⟨k + 1, fun i => ?_, fun j hj => ?_, ?_⟩
  · calc s'.results i = s.results (i + 1) := congrFun hresults i
      _ = b.results (i + 1 + k) := hs (i + 1)
      _ = b.results (i + (k + 1)) := by rw [Nat.add_right_comm, Nat.add_assoc]
  · obtain hlt | rfl := Nat.lt_succ_iff_lt_or_eq.1 hj
    · exact hk j hlt
    · omega
  · rw [Finset.sum_range_succ, hn, hrest, hresult]
    rw [hresult, hrest] at hpos
    omega

/-- **A round** is the last if the call took nothing or nothing remains. -/
theorem round_spec (hwithin : s.Within b.log_ before) (h : Counted b s) :
    (∃ s' es, round b s = ⟨.ok true, s', es⟩ ∧ Accounted b before es s') ∨
      ∃ s' es, round b s = ⟨.ok false, s', es⟩ ∧ s'.Within b.log_ before ∧ Counted b s' ∧
        s'.remain < s.remain := by
  obtain ⟨s', es, hstep, hwithin', hn, hresults, hmem⟩ := appendStep_spec "WriteFile error" hwithin
  have hrest := hwithin.rest
  have hrest' := hwithin'.rest
  have hle := hwithin.le
  have hle' := hwithin'.le
  rw [round, Act.bind_ok hstep]
  by_cases hzero : min (s.results 0) s.remain = 0
  · refine .inl ⟨s', es, ?_, ⟨hwithin', fun hlt => ?_⟩, ?_⟩
    · rw [decide_eq_true hzero, if_pos rfl, Act.pure_apply, Outcome.after_mk, List.append_nil]
    · rw [hzero] at hmem
      exact ⟨_, by omega, hmem⟩
    · obtain ⟨k, hs, hk, hsum⟩ := h
      have hresult : s.results 0 = b.results k := by rw [hs 0, Nat.zero_add]
      constructor
      · intro hall
        exact ⟨k, hk, by omega⟩
      · intro htaken
        by_contra hne
        exact Block.not_taken (k := k) (by omega) (by omega) htaken
  · have hcounted := Counted.next hwithin h hzero hn hresults
    rw [decide_eq_false hzero, if_neg Bool.false_ne_true, Act.get_bind, Act.pure_apply,
      Outcome.after_mk, List.append_nil]
    by_cases hremain : 0 < s'.remain
    · exact .inr ⟨s', es, by rw [decide_eq_false (not_not.2 hremain)], hwithin', hcounted, by omega⟩
    · refine .inl ⟨s', es, by rw [decide_eq_true hremain], ⟨hwithin', fun hlt => ?_⟩, ?_⟩
      · exact absurd hlt (by omega)
      · obtain ⟨k, -, hk, hsum⟩ := hcounted
        exact iff_of_true (by omega) ⟨k, hk, by omega⟩

/-- **The loop ends**, and whether it ends with the whole block is up to the calls. -/
theorem loop_spec (hwithin : s.Within b.log_ before) (h : Counted b s) :
    ∃ s' es, (∀ rounds > b.log_.length, Act.loop (round b) rounds s = ⟨.ok true, s', es⟩) ∧
      Accounted b before es s' := by
  have hround : ∀ es s', s'.Within b.log_ before ∧ Counted b s' →
      (∃ s'' es', round b s' = ⟨.ok true, s'', es'⟩ ∧ Accounted b before (es ++ es') s'') ∨
        ∃ s'' es', round b s' = ⟨.ok false, s'', es'⟩ ∧
          (s''.Within b.log_ before ∧ Counted b s'') ∧ s''.remain < s'.remain := by
    rintro es s' ⟨hwithin', hcounted⟩
    obtain ⟨s'', es', hlast, ⟨hover, hmissing⟩, htaken⟩ | ⟨s'', es', hnext, hwithin'', h'', hlt⟩ :=
      round_spec hwithin' hcounted
    · refine .inl ⟨s'', es', hlast, ⟨hover, fun hlt => ?_⟩, htaken⟩
      obtain ⟨requested, hpos, hmem⟩ := hmissing hlt
      exact ⟨requested, hpos, List.mem_append_right _ hmem⟩
    · exact .inr ⟨s'', es', hnext, ⟨hwithin'', h''⟩, hlt⟩
  have hrest := hwithin.rest
  obtain ⟨s', es, hloop, haccounted⟩ := Act.loop_ends
    (J := fun _ s' => s'.Within b.log_ before ∧ Counted b s') (Q := Accounted b before)
    Appending.remain hround ⟨hwithin, h⟩ (Nat.lt_succ_self _)
  exact ⟨s', es, fun rounds hrounds => Act.loop_le hloop (by omega), haccounted⟩

/-- **`WriteFile::append`** returns, leaves a prefix of the block in the stream, and counts all of
it. -/
theorem append_spec (f : WriteFile β) (b : Block β) :
    ∃ f' es, (∀ rounds > b.log_.length, append b rounds f = ⟨.ok true, f', es⟩) ∧
      Accepts b f.fp_ f'.fp_ es ∧ f'.writeLen_ = f.writeLen_ + b.log_.length ∧
      f'.fp_.length ≤ f.fp_.length + b.log_.length ∧
      (f'.fp_.length = f.fp_.length + b.log_.length ↔ b.Taken) := by
  have hwithin : Appending.Within b.log_ f.fp_ ⟨f.fp_, b.results, 0, b.log_.length⟩ :=
    ⟨by simp, Nat.zero_le _, rfl⟩
  have hcounted : Counted b ⟨f.fp_, b.results, 0, b.log_.length⟩ :=
    ⟨0, fun _ => rfl, fun j hj => absurd hj (Nat.not_lt_zero j), by simp⟩
  obtain ⟨s', es, hloop, hover, htaken⟩ := loop_spec hwithin hcounted
  have hlen : s'.fp_.length = f.fp_.length + s'.n := by
    have hle := hover.1.le
    rw [hover.1.accepted, List.length_append, List.length_take]
    omega
  refine ⟨⟨s'.fp_, f.writeLen_ + b.log_.length⟩, es, fun rounds hrounds => ?_, hover.accepts, rfl,
    ?_, ?_⟩
  · have hzoom : Act.zoom (fun f => ⟨f.fp_, b.results, 0, b.log_.length⟩)
        (fun s f => { f with fp_ := s.fp_ }) (Act.loop (round b) rounds) f =
          ⟨.ok true, ⟨s'.fp_, f.writeLen_⟩, es⟩ := by
      rw [Act.zoom, hloop rounds hrounds]
    rw [append, Act.bind_ok hzoom]
    simp
  · have hle := hover.1.le
    show s'.fp_.length ≤ _
    omega
  · rw [← htaken]
    show s'.fp_.length = _ ↔ _
    omega

/-- **Over a sequence of appends** the stream accepts at most what is counted, and as much only if
every block is taken. -/
theorem appendAll_spec (bs : List (Block β)) (f : WriteFile β) :
    ∃ f' es, (∀ rounds, (∀ b ∈ bs, b.log_.length < rounds) →
        appendAll rounds bs f = ⟨.ok true, f', es⟩) ∧
      f'.writeLen_ = f.writeLen_ + (bs.map fun b => b.log_.length).sum ∧
      f'.fp_.length ≤ f.fp_.length + (bs.map fun b => b.log_.length).sum ∧
      (f'.fp_.length = f.fp_.length + (bs.map fun b => b.log_.length).sum ↔
        ∀ b ∈ bs, b.Taken) := by
  induction bs generalizing f with
  | nil => exact ⟨f, [], fun _ _ => rfl, rfl, le_rfl, by simp⟩
  | cons b bs ih =>
    obtain ⟨f₁, es, happend, -, hcount, hle, htaken⟩ := append_spec f b
    obtain ⟨f', es', hall, hcount', hle', htaken'⟩ := ih f₁
    simp only [List.map_cons, List.sum_cons, List.forall_mem_cons]
    refine ⟨f', es ++ es', fun rounds hrounds => ?_, by omega, by omega, ?_⟩
    · rw [appendAll, Act.bind_ok (happend rounds hrounds.1), if_pos rfl, hall rounds hrounds.2,
        Outcome.after_mk]
    · rw [← htaken, ← htaken']
      omega

end WriteFile

/-- **Short writes are handled, and counted as if they were not.** Both loops return whatever the
calls of `fwrite_unlocked` return; the stream accepts a prefix of the block, each byte once and in
order, and the whole block unless a call took nothing. But `writeLen()` is the number of bytes
accepted, over a sequence of appends, if and only if every block is taken before a call takes
nothing. -/
theorem appends_accounted_iff (β : Type) :
    (∀ (f : AppendFile β) (b : Block β), ∃ f' es,
      (∀ rounds > b.log_.length, AppendFile.append b rounds f = ⟨.ok true, f', es⟩) ∧
        Accepts b f.fp_ f'.fp_ es) ∧
    (∀ (f : WriteFile β) (b : Block β), ∃ f' es,
      (∀ rounds > b.log_.length, WriteFile.append b rounds f = ⟨.ok true, f', es⟩) ∧
        Accepts b f.fp_ f'.fp_ es) ∧
    ∀ bs : List (Block β), ∃ f' es,
      (∀ rounds, (∀ b ∈ bs, b.log_.length < rounds) →
        WriteFile.appendAll rounds bs .opened = ⟨.ok true, f', es⟩) ∧
      (f'.writeLen = f'.fp_.length ↔ ∀ b ∈ bs, b.Taken) := by
  refine ⟨AppendFile.append_spec, fun f b => ?_, fun bs => ?_⟩
  · obtain ⟨f', es, happend, haccepts, -⟩ := WriteFile.append_spec f b
    exact ⟨f', es, happend, haccepts⟩
  · obtain ⟨f', es, hall, hcount, -, htaken⟩ := WriteFile.appendAll_spec bs .opened
    refine ⟨f', es, hall, ?_⟩
    rw [← htaken, WriteFile.writeLen, hcount]
    show 0 + _ = _ ↔ _ = 0 + _
    exact eq_comm

/-- **A block of three bytes of which two are accepted** is counted as three. -/
theorem short_append_overcounted :
    ∃ f' es, WriteFile.appendAll 4 [⟨['a', 'b', 'c'], fun i => if i = 0 then 2 else 0, true⟩]
        .opened = ⟨.ok true, f', es⟩ ∧ f'.fp_ = ['a', 'b'] ∧ f'.writeLen = 3 :=
  ⟨_, _, rfl, rfl, rfl⟩

end Cannet.Base
