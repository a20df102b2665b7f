import Mathlib.Logic.Basic
import Mathlib.Data.List.Basic

/-!
# Calls on an object, with their trace

A call on a mutable object either returns a value or aborts; in both cases it leaves the object in
some state and has done a list of things to the outside world, in order. `Act δ ε σ α` is the
type of such calls: `δ` the reasons to abort, `ε` the things done outside, `σ` the object.

Two rules carry most proofs about them. `Act.bind_ok` follows one call through a sequence.
`Act.Keeps J` says that a call keeps an invariant `J` of the whole trace and the object, whether
it returns or not, and has one rule for each way calls are put together.
-/

namespace Cannet.Foundations

variable {δ ε ε' σ τ α α' : Type}

/-- What a call leaves behind. -/
structure Outcome (δ ε σ α : Type) where
  val : Except δ α
  state : σ
  trace : List ε

/-- The outcome of a call made after the things in `es` were done. -/
def Outcome.after (es : List ε) (o : Outcome δ ε σ α) : Outcome δ ε σ α :=
  { o with trace := es ++ o.trace }

@[simp] theorem Outcome.val_after (es : List ε) (o : Outcome δ ε σ α) :
    (o.after es).val = o.val := rfl

@[simp] theorem Outcome.state_after (es : List ε) (o : Outcome δ ε σ α) :
    (o.after es).state = o.state := rfl

@[simp] theorem Outcome.trace_after (es : List ε) (o : Outcome δ ε σ α) :
    (o.after es).trace = es ++ o.trace := rfl

@[simp] theorem Outcome.after_mk (es es' : List ε) (v : Except δ α) (s : σ) :
    (⟨v, s, es'⟩ : Outcome δ ε σ α).after es = ⟨v, s, es ++ es'⟩ := rfl

@[simp] theorem Outcome.after_nil (o : Outcome δ ε σ α) : o.after [] = o := rfl

/-- Whether the call returned. -/
def Outcome.returned (o : Outcome δ ε σ α) : Bool :=
  match o.val with
  | .ok _ => true
  | .error _ => false

theorem Outcome.returned_iff {o : Outcome δ ε σ Unit} : o.returned = true ↔ o.val = .ok () := by
  unfold returned
  rcases o.val with d | _ <;> simp

/-- A call on an object of type `σ`. -/
def Act (δ ε σ α : Type) : Type := σ → Outcome δ ε σ α

namespace Act

/-- The call `f a` after the call `x` returned `a`; nothing after a call that aborted. -/
def bind (x : Act δ ε σ α) (f : α → Act δ ε σ α') : Act δ ε σ α' := fun s =>
  match x s with
  | ⟨.ok a, s', es⟩ => (f a s').after es
  | ⟨.error d, s', es⟩ => ⟨.error d, s', es⟩

instance : Monad (Act δ ε σ) where
  pure a := fun s => ⟨.ok a, s, []⟩
  bind := bind

/-- The object. -/
def get : Act δ ε σ σ := fun s => ⟨.ok s, s, []⟩

/-- Update the object. -/
def modify (g : σ → σ) : Act δ ε σ Unit := fun s => ⟨.ok (), g s, []⟩

/-- Do one thing outside. -/
def emit (e : ε) : Act δ ε σ Unit := fun s => ⟨.ok (), s, [e]⟩

/-- Stop. -/
def abort (d : δ) : Act δ ε σ α := fun s => ⟨.error d, s, []⟩

/-- Stop unless `p`. -/
def check (d : δ) (p : Prop) [Decidable p] : Act δ ε σ Unit :=
  if p then pure () else abort d

/-- A value that may be missing; stop if it is. -/
def need (d : δ) : Option α → Act δ ε σ α
  | some a => pure a
  | none => abort d

/-- A call on a part of the object. -/
def zoom (view : σ → τ) (put : τ → σ → σ) (x : Act δ ε τ α) : Act δ ε σ α := fun s =>
  let o := x (view s)
  ⟨o.val, put o.state s, o.trace⟩

/-- A call, what it does told as something else. -/
def mapTrace (f : ε → ε') (x : Act δ ε σ α) : Act δ ε' σ α := fun s =>
  let o := x s
  ⟨o.val, o.state, o.trace.map f⟩

/-! ## Following a call -/

@[simp] theorem pure_apply (a : α) (s : σ) : (pure a : Act δ ε σ α) s = ⟨.ok a, s, []⟩ := rfl

theorem bind_apply (x : Act δ ε σ α) (f : α → Act δ ε σ α') (s : σ) :
    (x >>= f) s = match x s with
      | ⟨.ok a, s', es⟩ => (f a s').after es
      | ⟨.error d, s', es⟩ => ⟨.error d, s', es⟩ := rfl

/-- **A call that returns is followed by the rest.** -/
theorem bind_ok {x : Act δ ε σ α} {s s' : σ} {a : α} {es : List ε} (h : x s = ⟨.ok a, s', es⟩)
    (f : α → Act δ ε σ α') : (x >>= f) s = (f a s').after es := by
  rw [bind_apply, h]

/-- A call that aborts is followed by nothing. -/
theorem bind_error {x : Act δ ε σ α} {s s' : σ} {d : δ} {es : List ε}
    (h : x s = ⟨.error d, s', es⟩) (f : α → Act δ ε σ α') :
    (x >>= f) s = ⟨.error d, s', es⟩ := by
  rw [bind_apply, h]

/-- A sequence that returns was followed to its end. -/
theorem bind_returned {x : Act δ ε σ α} {f : α → Act δ ε σ α'} {s : σ} {b : α'}
    (h : ((x >>= f) s).val = .ok b) :
    ∃ a, x s = ⟨.ok a, (x s).state, (x s).trace⟩ ∧ (f a (x s).state).val = .ok b := by
  rw [bind_apply] at h
  rcases hx : x s with ⟨_ | a, s', es⟩
  · rw [hx] at h
    cases h
  · rw [hx] at h
    exact ⟨a, rfl, h⟩

/-- What the first call of a sequence does is done first. -/
theorem trace_prefix_bind (x : Act δ ε σ α) (f : α → Act δ ε σ α') (s : σ) :
    (x s).trace <+: ((x >>= f) s).trace := by
  rw [bind_apply]
  rcases x s with ⟨_ | a, s', es⟩
  · exact List.prefix_rfl
  · exact List.prefix_append es _

/-- A sequence returns when both of its calls do. -/
theorem bind_ok_iff {x : Act δ ε σ Unit} {f : Unit → Act δ ε σ α} {s : σ} {a : α} :
    ((x >>= f) s).val = .ok a ↔ (x s).val = .ok () ∧ (f () (x s).state).val = .ok a := by
  rw [bind_apply]
  rcases x s with ⟨_ | _, s', es⟩
  · exact ⟨fun h => (by cases h), fun h => (by cases h.1)⟩
  · exact ⟨fun h => ⟨rfl, h⟩, And.right⟩

/-- An update after a call. -/
theorem bind_modify (x : Act δ ε σ Unit) (g : σ → σ) (s : σ) :
    ((x >>= fun _ => modify g) s).val = (x s).val ∧
      ((x s).val = .ok () → ((x >>= fun _ => modify g) s).state = g (x s).state) := by
  rw [bind_apply]
  rcases x s with ⟨_ | _, s', es⟩
  · exact ⟨rfl, fun h => (by cases h)⟩
  · exact ⟨rfl, fun _ => rfl⟩

@[simp] theorem pure_bind (a : α) (f : α → Act δ ε σ α') (s : σ) :
    ((pure a : Act δ ε σ α) >>= f) s = f a s := rfl

@[simp] theorem get_apply (s : σ) : (get : Act δ ε σ σ) s = ⟨.ok s, s, []⟩ := rfl

@[simp] theorem get_bind (f : σ → Act δ ε σ α) (s : σ) : (get >>= f) s = f s s := rfl

@[simp] theorem modify_apply (g : σ → σ) (s : σ) :
    (modify g : Act δ ε σ Unit) s = ⟨.ok (), g s, []⟩ := rfl

@[simp] theorem modify_bind (g : σ → σ) (f : Unit → Act δ ε σ α) (s : σ) :
    (modify g >>= f) s = f () (g s) := rfl

@[simp] theorem emit_apply (e : ε) (s : σ) :
    (emit e : Act δ ε σ Unit) s = ⟨.ok (), s, [e]⟩ := rfl

@[simp] theorem emit_bind (e : ε) (f : Unit → Act δ ε σ α) (s : σ) :
    (emit e >>= f) s = (f () s).after [e] := rfl

@[simp] theorem abort_apply (d : δ) (s : σ) :
    (abort d : Act δ ε σ α) s = ⟨.error d, s, []⟩ := rfl

@[simp] theorem abort_bind (d : δ) (f : α → Act δ ε σ α') (s : σ) :
    ((abort d : Act δ ε σ α) >>= f) s = ⟨.error d, s, []⟩ := rfl

theorem check_pos {p : Prop} [Decidable p] (d : δ) (h : p) :
    (check d p : Act δ ε σ Unit) = pure () := if_pos h

theorem check_neg {p : Prop} [Decidable p] (d : δ) (h : ¬p) :
    (check d p : Act δ ε σ Unit) = abort d := if_neg h

@[simp] theorem need_some (d : δ) (a : α) : (need d (some a) : Act δ ε σ α) = pure a := rfl

@[simp] theorem need_none (d : δ) : (need d none : Act δ ε σ α) = abort d := rfl

theorem forM_cons {ι : Type} (f : ι → Act δ ε σ Unit) (i : ι) (l : List ι) (s : σ) :
    (i :: l).forM f s = (f i >>= fun _ => l.forM f) s := rfl

/-- A list of calls that only look only looks, and returns when each of them does. -/
theorem forM_looks {ι : Type} {f : ι → Act δ ε σ Unit} {l : List ι} {s : σ}
    (h : ∀ i ∈ l, (f i s).state = s) :
    (l.forM f s).state = s ∧ ((l.forM f s).val = .ok () ↔ ∀ i ∈ l, (f i s).val = .ok ()) := by
  induction l with
  | nil => exact ⟨rfl, fun _ _ hi => absurd hi List.not_mem_nil, fun _ => rfl⟩
  | cons i l ih =>
    obtain ⟨hstate, hval⟩ := ih fun j hj => h j (List.mem_cons_of_mem i hj)
    have hi := h i List.mem_cons_self
    rw [forM_cons, bind_apply, List.forall_mem_cons, ← hval]
    rcases hfi : f i s with ⟨_ | _, s', es⟩
    · rw [hfi] at hi
      exact ⟨hi, fun hok => (by cases hok), fun hok => (by cases hok.1)⟩
    · rw [hfi] at hi
      obtain rfl : s' = s := hi
      exact ⟨hstate, fun hok => ⟨rfl, hok⟩, And.right⟩

theorem mapTrace_apply {x : Act δ ε σ α} {s s' : σ} {v : Except δ α} {es : List ε}
    (h : x s = ⟨v, s', es⟩) (f : ε → ε') : x.mapTrace f s = ⟨v, s', es.map f⟩ := by
  rw [mapTrace, h]

theorem ite_apply {p : Prop} [Decidable p] (x y : Act δ ε σ α) (s : σ) :
    (if p then x else y) s = if p then x s else y s := by
  split <;> rfl

/-! ## Invariants of the trace and the object -/

/-- The call keeps `J`, whether it returns or aborts. -/
def Keeps (J : List ε → σ → Prop) (x : Act δ ε σ α) : Prop :=
  ∀ es s, J es s → J (es ++ (x s).trace) (x s).state

/-- The call keeps `J` if it returns. -/
def KeepsOk (J : List ε → σ → Prop) (x : Act δ ε σ α) : Prop :=
  ∀ es s a, J es s → (x s).val = .ok a → J (es ++ (x s).trace) (x s).state

theorem Keeps.ok {J : List ε → σ → Prop} {x : Act δ ε σ α} (h : Keeps J x) : KeepsOk J x :=
  fun es s _ hs _ => h es s hs

namespace Keeps

variable {J : List ε → σ → Prop}

theorem pure (a : α) : Keeps J (Pure.pure a : Act δ ε σ α) := fun es s h => by
  simpa using h

theorem get : Keeps J (Act.get : Act δ ε σ σ) := fun es s h => by simpa using h

theorem abort (d : δ) : Keeps J (Act.abort d : Act δ ε σ α) := fun es s h => by simpa using h

theorem modify {g : σ → σ} (h : ∀ es s, J es s → J es (g s)) :
    Keeps J (Act.modify g : Act δ ε σ Unit) := fun es s hs => by simpa using h es s hs

theorem emit {e : ε} (h : ∀ es s, J es s → J (es ++ [e]) s) :
    Keeps J (Act.emit e : Act δ ε σ Unit) := fun es s hs => h es s hs

theorem bind {x : Act δ ε σ α} {f : α → Act δ ε σ α'} (hx : Keeps J x)
    (hf : ∀ a, Keeps J (f a)) : Keeps J (x >>= f) := by
  intro es s hs
  have h := hx es s hs
  rcases hxs : x s with ⟨_ | a, s', es'⟩
  · rw [bind_error hxs]
    rwa [hxs] at h
  · rw [bind_ok hxs]
    rw [hxs] at h
    simpa [List.append_assoc] using hf a (es ++ es') s' h

theorem ite {p : Prop} [Decidable p] {x y : Act δ ε σ α} (hx : Keeps J x) (hy : Keeps J y) :
    Keeps J (if p then x else y) := by
  split
  · exact hx
  · exact hy

theorem check (d : δ) (p : Prop) [Decidable p] : Keeps J (Act.check d p : Act δ ε σ Unit) :=
  ite (pure ()) (abort d)

theorem need (d : δ) : ∀ o : Option α, Keeps J (Act.need d o : Act δ ε σ α)
  | some a => pure a
  | none => abort d

/-- A list of calls keeps what each of them keeps. -/
theorem forM {ι : Type} {f : ι → Act δ ε σ Unit} :
    ∀ {l : List ι}, (∀ i ∈ l, Keeps J (f i)) → Keeps J (l.forM f)
  | [], _ => pure ()
  | i :: l, h => bind (h i (by simp)) fun _ => forM fun j hj => h j (by simp [hj])

end Keeps

end Act

end Cannet.Foundations
