import Cannet.Foundations.Loop
import Mathlib.Data.Int.Basic
import Mathlib.Data.List.Count

/-!
# Accepting connections

`TcpServer::acceptHandRead` of `net/TcpServer.cpp` and `socketops::accept` of `net/SocketOps.cpp`,
on what the kernel keeps for the process: the descriptor table, the connections that wait in the
backlog and, when it does not accept at all, the error it answers with. `accept` takes a descriptor
before it looks at the backlog.

No round of the loop loses a descriptor (`Settled`). But its only way out is `EAGAIN`, and a process
without a free descriptor gets `EMFILE` whether anybody waits or not: giving up `idleFd_` empties
the backlog and takes the descriptor back, so the next round finds what this one did. The loop ends
if and only if the free descriptors outnumber the backlog (`accept_ends_iff`).
-/

namespace Cannet.Net

open Foundations

/-- `errno` after `accept`. -/
inductive AcceptErrno
  | EAGAIN
  | ECONNABORTED
  | EINTR
  | EPERM
  | EMFILE
  | EBADF
  | EFAULT
  | EINVAL
  | ENFILE
  | ENOBUFS
  | ENOMEM
  | ENOTSOCK
  | EOPNOTSUPP
  | other (n : ℕ)
  deriving DecidableEq, Repr

/-- The errors `socketops::accept` expects; it takes the others for fatal. -/
def AcceptErrno.isFatal : AcceptErrno → Bool
  | EAGAIN | ECONNABORTED | EINTR | EPERM | EMFILE => false
  | _ => true

/-- What the loop does. -/
inductive AcceptEffect
  | accepted (fd : ℕ)
  | newConnection (fd : ℕ)
  | close (fd : ℤ)
  | opened (fd : ℤ)
  | LOG_FATAL (e : AcceptErrno)
  deriving DecidableEq, Repr

/-- The process and its server. -/
structure Accepting where
  /-- Which descriptors are in use. -/
  table : List Bool
  backlog : ℕ
  /-- The error with which the kernel refuses every `accept`, if it does. -/
  refuses : Option AcceptErrno
  idleFd : ℤ
  deriving DecidableEq, Repr

/-- A call of the server; none of them fails. -/
abbrev AcceptAct (α : Type) := Act Empty AcceptEffect Accepting α

namespace Accepting

/-- The lowest free descriptor. -/
def lowest (table : List Bool) : Option ℕ := table.findIdx? (· == false)

/-- `accept` and `accept4` of the kernel. -/
def kernelAccept : AcceptAct (Except AcceptErrno ℕ) := do
  let s ← Act.get
  match s.refuses with
  | some e => pure (.error e)
  | none =>
    match lowest s.table with
    | none => pure (.error .EMFILE)
    | some fd =>
      match s.backlog with
      | 0 => pure (.error .EAGAIN)
      | waiting + 1 =>
        Act.modify fun s => { s with table := s.table.set fd true, backlog := waiting }
        Act.emit (.accepted fd)
        pure (.ok fd)

/-- `close` of a descriptor that is not in use does nothing. -/
def close (fd : ℤ) : AcceptAct Unit := do
  Act.emit (.close fd)
  if 0 ≤ fd then
    Act.modify fun s => { s with table := s.table.set fd.toNat false }

/-- `open` of `/dev/null`. -/
def openNull : AcceptAct ℤ := do
  let s ← Act.get
  match lowest s.table with
  | none =>
    Act.emit (.opened (-1))
    pure (-1)
  | some fd =>
    Act.modify fun s => { s with table := s.table.set fd true }
    Act.emit (.opened fd)
    pure fd

/-- `socketops::accept`: a fatal error is logged, no more. -/
def accept : AcceptAct (Except AcceptErrno ℕ) := do
  match ← kernelAccept with
  | .ok connfd => pure (.ok connfd)
  | .error savedErrno =>
    if savedErrno.isFatal then
      Act.emit (.LOG_FATAL savedErrno)
    pure (.error savedErrno)

/-- The descriptor held in reserve is given up for the connection in front of the backlog, and
taken back. -/
def makeWay : AcceptAct Unit := do
  let s ← Act.get
  close s.idleFd
  let idleFd : ℤ := match ← kernelAccept with
    | .ok fd => fd
    | .error _ => -1
  close idleFd
  let idleFd ← openNull
  Act.modify fun s => { s with idleFd := idleFd }

/-- One round of the loop; whether it was the last. -/
def acceptRound : AcceptAct Bool := do
  match ← accept with
  | .ok connFd =>
    Act.emit (.newConnection connFd)
    pure false
  | .error errno =>
    if errno = .EAGAIN then
      pure true
    else
      if errno = .EMFILE then
        makeWay
      pure false

def acceptHandRead : ℕ → AcceptAct Bool := Act.loop acceptRound

/-! ## The descriptor table -/

/-- The number of free descriptors. -/
def free (s : Accepting) : ℕ := s.table.count false

/-- The descriptor is in use. -/
def IsOpen (s : Accepting) (fd : ℤ) : Prop := 0 ≤ fd ∧ s.table[fd.toNat]? = some true

instance (s : Accepting) (fd : ℤ) : Decidable (s.IsOpen fd) :=
  inferInstanceAs (Decidable (_ ∧ _))

theorem lowest_eq_none {table : List Bool} : lowest table = none ↔ table.count false = 0 := by
  simp [lowest, List.count_eq_zero]

theorem lowest_of_free {table : List Bool} (h : 0 < table.count false) :
    ∃ fd, lowest table = some fd := by
  rw [← Option.ne_none_iff_exists', ne_eq, lowest_eq_none]
  omega

/-- The lowest free descriptor is free. -/
theorem getElem?_of_lowest {table : List Bool} {fd : ℕ} (h : lowest table = some fd) :
    table[fd]? = some false := by
  obtain ⟨hlt, hfree, -⟩ := List.findIdx?_eq_some_iff_getElem.1 h
  rw [List.getElem?_eq_getElem hlt, Option.some.injEq]
  exact eq_of_beq hfree

/-- Taking a free descriptor. -/
theorem count_take {table : List Bool} {fd : ℕ} (h : table[fd]? = some false) :
    (table.set fd true).count false + 1 = table.count false := by
  obtain ⟨hlt, hfree⟩ := List.getElem?_eq_some_iff.1 h
  have hpos : 0 < table.count false := List.count_pos_iff.2 (hfree ▸ List.getElem_mem hlt)
  rw [List.count_set hlt, hfree]
  simp only [beq_self_eq_true, if_true, Bool.true_eq_false, beq_iff_eq, if_false]
  omega

/-- Giving back one in use. -/
theorem count_release {table : List Bool} {fd : ℕ} (h : table[fd]? = some true) :
    (table.set fd false).count false = table.count false + 1 := by
  obtain ⟨hlt, hused⟩ := List.getElem?_eq_some_iff.1 h
  rw [List.count_set hlt, hused]
  simp

/-! ## The calls of the kernel -/

variable {s : Accepting}

theorem kernelAccept_refused {e : AcceptErrno} (h : s.refuses = some e) :
    kernelAccept s = ⟨.ok (.error e), s, []⟩ := by
  rw [kernelAccept, Act.get_bind, h]
  rfl

/-- Without a free descriptor it does not matter who waits. -/
theorem kernelAccept_full (h : s.refuses = none) (hfree : s.free = 0) :
    kernelAccept s = ⟨.ok (.error .EMFILE), s, []⟩ := by
  rw [kernelAccept, Act.get_bind, h]
  simp only [lowest_eq_none.2 hfree]
  rfl

theorem kernelAccept_empty (h : s.refuses = none) (hfree : 0 < s.free) (hback : s.backlog = 0) :
    kernelAccept s = ⟨.ok (.error .EAGAIN), s, []⟩ := by
  obtain ⟨fd, hfd⟩ := lowest_of_free hfree
  rw [kernelAccept, Act.get_bind, h]
  simp only [hfd, hback]
  rfl

theorem kernelAccept_waiting (h : s.refuses = none) (hfree : 0 < s.free) {waiting : ℕ}
    (hback : s.backlog = waiting + 1) :
    ∃ fd, s.table[fd]? = some false ∧ kernelAccept s =
      ⟨.ok (.ok fd), { s with table := s.table.set fd true, backlog := waiting },
        [.accepted fd]⟩ := by
  obtain ⟨fd, hfd⟩ := lowest_of_free hfree
  refine ⟨fd, getElem?_of_lowest hfd, ?_⟩
  obtain ⟨table, backlog, refuses, idleFd⟩ := s
  obtain rfl : refuses = none := h
  obtain rfl : backlog = waiting + 1 := hback
  rw [kernelAccept, Act.get_bind]
  simp only [hfd]
  rfl

theorem close_apply {fd : ℤ} (h : s.IsOpen fd) :
    close fd s = ⟨.ok (), { s with table := s.table.set fd.toNat false }, [.close fd]⟩ := by
  rw [close, Act.emit_bind, if_pos h.1]
  rfl

theorem openNull_apply (hfree : 0 < s.free) :
    ∃ fd : ℕ, s.table[fd]? = some false ∧ openNull s =
      ⟨.ok fd, { s with table := s.table.set fd true }, [.opened fd]⟩ := by
  obtain ⟨fd, hfd⟩ := lowest_of_free hfree
  refine ⟨fd, getElem?_of_lowest hfd, ?_⟩
  rw [openNull, Act.get_bind]
  simp only [hfd]
  rfl

/-- A descriptor that has just been taken is open. -/
theorem isOpen_set {fd : ℕ} (h : s.table[fd]? = some false) {s' : Accepting}
    (htable : s'.table = s.table.set fd true) : s'.IsOpen fd := by
  refine ⟨Int.natCast_nonneg fd, ?_⟩
  obtain ⟨hlt, -⟩ := List.getElem?_eq_some_iff.1 h
  rw [htable, Int.toNat_natCast, List.getElem?_set_self hlt]

/-- Taking another descriptor leaves one open. -/
theorem IsOpen.set {fd : ℕ} {fd' : ℤ} (h : s.IsOpen fd') {s' : Accepting}
    (htable : s'.table = s.table.set fd true) : s'.IsOpen fd' := by
  refine ⟨h.1, ?_⟩
  obtain ⟨hlt, hused⟩ := List.getElem?_eq_some_iff.1 h.2
  rw [htable, List.getElem?_set]
  split
  · rename_i heq
    rw [if_pos (by omega)]
  · exact h.2

/-! ## One round -/

/-- The kernel accepts, and the descriptor in reserve is open. -/
structure Ready (s : Accepting) : Prop where
  accepts : s.refuses = none
  idle : s.IsOpen s.idleFd

/-- The effects of rounds that begin with the reserve `i` and end with `j`: each accepted descriptor
is passed on, or closed at once with the reserve given up for it; nothing else is passed on. -/
inductive Settled : ℤ → List AcceptEffect → ℤ → Prop
  | nil (i : ℤ) : Settled i [] i
  | passed {i j : ℤ} {es : List AcceptEffect} (fd : ℕ) (h : Settled i es j) :
      Settled i (.accepted fd :: .newConnection fd :: es) j
  | closed {i i' j : ℤ} {es : List AcceptEffect} (fd : ℕ) (h : Settled i' es j) :
      Settled i (.close i :: .accepted fd :: .close fd :: .opened i' :: es) j
  | missed {i i' j : ℤ} {es : List AcceptEffect} (h : Settled i' es j) :
      Settled i (.close i :: .close (-1) :: .opened i' :: es) j

theorem Settled.append {i j k : ℤ} {es es' : List AcceptEffect} (h : Settled i es j)
    (h' : Settled j es' k) : Settled i (es ++ es') k := by
  induction h with
  | nil => exact h'
  | passed fd _ ih => exact .passed fd (ih h')
  | closed fd _ ih => exact .closed fd (ih h')
  | missed _ ih => exact .missed (ih h')

/-- With a free descriptor, whoever waits is accepted and passed on. -/
theorem acceptRound_waiting (h : s.Ready) (hfree : 0 < s.free) {waiting : ℕ}
    (hback : s.backlog = waiting + 1) :
    ∃ s' fd, acceptRound s = ⟨.ok false, s', [.accepted fd, .newConnection fd]⟩ ∧ s'.Ready ∧
      s'.free + 1 = s.free ∧ s'.backlog = waiting ∧ s'.idleFd = s.idleFd := by
  obtain ⟨fd, hfd, haccept⟩ := kernelAccept_waiting h.accepts hfree hback
  refine ⟨{ s with table := s.table.set fd true, backlog := waiting }, fd, ?_,
    ⟨h.accepts, h.idle.set rfl⟩, count_take hfd, rfl, rfl⟩
  have haccept' : accept s = _ := Act.bind_ok haccept _
  rw [acceptRound, Act.bind_ok haccept']
  rfl

/-- With a free descriptor and nobody waiting, the round is the last. -/
theorem acceptRound_last (h : s.Ready) (hfree : 0 < s.free) (hback : s.backlog = 0) :
    acceptRound s = ⟨.ok true, s, []⟩ := by
  have haccept' : accept s = _ := Act.bind_ok (kernelAccept_empty h.accepts hfree hback) _
  rw [acceptRound, Act.bind_ok haccept']
  rfl

/-- Giving up the reserve frees one descriptor. -/
theorem free_of_close (h : s.Ready) {s' : Accepting}
    (htable : s'.table = s.table.set s.idleFd.toNat false) : s'.free = s.free + 1 := by
  rw [free, htable]
  exact count_release h.idle.2

/-- **Without a free descriptor** one connection is taken from the backlog and closed, if one
waits, and again no descriptor is free. -/
theorem makeWay_spec (h : s.Ready) (hfull : s.free = 0) :
    ∃ s' es, makeWay s = ⟨.ok (), s', es⟩ ∧ s'.Ready ∧ s'.free = 0 ∧
      s'.backlog = s.backlog - 1 ∧ Settled s.idleFd es s'.idleFd := by
  let s₁ : Accepting := { s with table := s.table.set s.idleFd.toNat false }
  have hclose : close s.idleFd s = ⟨.ok (), s₁, [.close s.idleFd]⟩ := close_apply h.idle
  have hfree₁ : s₁.free = 1 := by
    have hone : s₁.free = s.free + 1 := free_of_close h rfl
    omega
  cases hback : s.backlog with
  | zero =>
    have haccept : kernelAccept s₁ = ⟨.ok (.error .EAGAIN), s₁, []⟩ :=
      kernelAccept_empty h.accepts (by omega) hback
    have hmissed : close (-1) s₁ = ⟨.ok (), s₁, [.close (-1)]⟩ := rfl
    obtain ⟨fd, hfd, hopen⟩ := openNull_apply (s := s₁) (by omega)
    let s' : Accepting := { s₁ with table := s₁.table.set fd true, idleFd := fd }
    have hcount : s'.free + 1 = s₁.free := count_take hfd
    refine ⟨s', _, ?_, ⟨h.accepts, isOpen_set hfd rfl⟩, by omega, hback, .missed (.nil _)⟩
    · rw [makeWay, Act.get_bind, Act.bind_ok hclose, Act.bind_ok haccept]
      show (((close (-1) >>= _) s₁).after []).after _ = _
      rw [Act.bind_ok hmissed, Act.bind_ok hopen]
      rfl
  | succ waiting =>
    obtain ⟨fd, hfd, haccept⟩ := kernelAccept_waiting (s := s₁) h.accepts (by omega) hback
    let s₂ : Accepting := { s₁ with table := s₁.table.set fd true, backlog := waiting }
    have hopen₂ : s₂.IsOpen fd := isOpen_set hfd rfl
    have hclose₂ := close_apply hopen₂
    let s₃ : Accepting := { s₂ with table := s₂.table.set (fd : ℤ).toNat false }
    have hcount₂ : s₂.free + 1 = s₁.free := count_take hfd
    have hcount₃ : s₃.free = s₂.free + 1 := count_release hopen₂.2
    obtain ⟨fd', hfd', hopen⟩ := openNull_apply (s := s₃) (by omega)
    let s' : Accepting := { s₃ with table := s₃.table.set fd' true, idleFd := fd' }
    have hcount₄ : s'.free + 1 = s₃.free := count_take hfd'
    refine ⟨s', _, ?_, ⟨h.accepts, isOpen_set hfd' rfl⟩, by omega, rfl, .closed fd (.nil _)⟩
    · rw [makeWay, Act.get_bind, Act.bind_ok hclose, Act.bind_ok haccept]
      show (((close fd >>= _) s₂).after _).after _ = _
      rw [Act.bind_ok hclose₂, Act.bind_ok hopen]
      rfl

/-- Without a free descriptor the round is not the last, and ends as it began. -/
theorem acceptRound_full (h : s.Ready) (hfull : s.free = 0) :
    ∃ s' es, acceptRound s = ⟨.ok false, s', es⟩ ∧ s'.Ready ∧ s'.free = 0 ∧
      s'.backlog = s.backlog - 1 ∧ Settled s.idleFd es s'.idleFd := by
  obtain ⟨s', es, hway, hready, hfree, hback, hsettled⟩ := makeWay_spec h hfull
  have haccept : accept s = ⟨.ok (.error .EMFILE), s, []⟩ := by
    rw [accept, Act.bind_ok (kernelAccept_full h.accepts hfull)]
    rfl
  refine ⟨s', es, ?_, hready, hfree, hback, hsettled⟩
  rw [acceptRound, Act.bind_ok haccept]
  show ((makeWay >>= _) s).after _ = _
  rw [Act.bind_ok hway]
  simp [Act.pure_apply]

/-- A refused `accept` that is not `EAGAIN` ends nothing. -/
theorem acceptRound_refused {e : AcceptErrno} (h : s.refuses = some e) (he : e.isFatal = true) :
    acceptRound s = ⟨.ok false, s, [.LOG_FATAL e]⟩ := by
  have haccept : accept s = ⟨.ok (.error e), s, [.LOG_FATAL e]⟩ := by
    rw [accept, Act.bind_ok (kernelAccept_refused h)]
    simp only [he, if_true]
    rfl
  have hagain : e ≠ .EAGAIN := by
    rintro rfl
    cases he
  have hmany : e ≠ .EMFILE := by
    rintro rfl
    cases he
  rw [acceptRound, Act.bind_ok haccept]
  simp only [if_neg hagain, if_neg hmany]
  rfl

/-! ## The loop -/

/-- What a call on the state `s` is to do: end, with the backlog empty, every descriptor settled
and the reserve open again; when the kernel refuses to accept at all, end. -/
def AcceptEnds (s : Accepting) : Prop :=
  ∃ n s' es, acceptHandRead n s = ⟨.ok true, s', es⟩ ∧
    (s.refuses = none → s'.backlog = 0 ∧ Settled s.idleFd es s'.idleFd ∧ s'.IsOpen s'.idleFd)

/-- With more free descriptors than waiting connections the loop ends. -/
theorem acceptEnds_of_lt (h : s.Ready) (hlt : s.backlog < s.free) : s.AcceptEnds := by
  let J : List AcceptEffect → Accepting → Prop := fun es s' =>
    s'.Ready ∧ s'.backlog < s'.free ∧ s'.idleFd = s.idleFd ∧ Settled s.idleFd es s'.idleFd
  have hround : ∀ es s', J es s' →
      (∃ s'' es', acceptRound s' = ⟨.ok true, s'', es'⟩ ∧ J (es ++ es') s'' ∧ s''.backlog = 0) ∨
        ∃ s'' es', acceptRound s' = ⟨.ok false, s'', es'⟩ ∧ J (es ++ es') s'' ∧
          s''.backlog < s'.backlog := by
    rintro es s' ⟨hready, hlt', hidle, hsettled⟩
    cases hback : s'.backlog with
    | zero =>
      refine .inl ⟨s', [], acceptRound_last hready (by omega) hback, ⟨hready, hlt', hidle, ?_⟩,
        hback⟩
      rwa [List.append_nil]
    | succ waiting =>
      obtain ⟨s'', fd, hstep, hready', hfree, hback', hidle'⟩ :=
        acceptRound_waiting hready (by omega) hback
      refine .inr ⟨s'', _, hstep, ⟨hready', by omega, hidle'.trans hidle, ?_⟩, by omega⟩
      refine hsettled.append (.passed fd ?_)
      rw [hidle']
      exact .nil _
  obtain ⟨s', es, hloop, ⟨hready, -, -, hsettled⟩, hback⟩ :=
    Act.loop_ends (Q := fun es s' => J es s' ∧ s'.backlog = 0) Accepting.backlog hround
      ⟨h, hlt, rfl, .nil _⟩ (Nat.lt_succ_self _)
  exact ⟨_, s', es, hloop, fun _ => ⟨hback, hsettled, hready.idle⟩⟩

/-- With no more free descriptors than waiting connections it goes on for ever. -/
theorem never_of_le (h : s.Ready) (hle : s.free ≤ s.backlog) (n : ℕ) :
    (acceptHandRead n s).val = .ok false := by
  refine Act.loop_never (I := fun s' => s'.Ready ∧ s'.free ≤ s'.backlog) ?_ ⟨h, hle⟩ n
  rintro s' ⟨hready, hle'⟩
  rcases Nat.eq_zero_or_pos s'.free with hfull | hfree
  · obtain ⟨s'', es, hstep, hready', hfull', -, -⟩ := acceptRound_full hready hfull
    exact ⟨s'', es, hstep, hready', by omega⟩
  · obtain ⟨waiting, hback⟩ := Nat.exists_eq_add_one_of_ne_zero (by omega : s'.backlog ≠ 0)
    obtain ⟨s'', fd, hstep, hready', hcount, hback', -⟩ :=
      acceptRound_waiting hready hfree hback
    exact ⟨s'', _, hstep, hready', by omega⟩

/-- A fatal error that persists keeps the loop going. -/
theorem never_of_refused {e : AcceptErrno} (h : s.refuses = some e) (he : e.isFatal = true)
    (n : ℕ) : (acceptHandRead n s).val = .ok false :=
  Act.loop_never (I := fun s' => s'.refuses = some e)
    (fun s' h' => ⟨s', _, acceptRound_refused h' he, h'⟩) h n

end Accepting

/-- **When the accept loop ends.** With the reserve open at first, and errors that persist only if
they are fatal: if and only if the kernel accepts and the free descriptors outnumber the
connections that wait. -/
theorem accept_ends_iff {s : Accepting} (hidle : s.IsOpen s.idleFd)
    (hfatal : ∀ e, s.refuses = some e → e.isFatal = true) :
    s.AcceptEnds ↔ s.refuses = none ∧ s.backlog < s.free := by
  constructor
  · rintro ⟨n, s', es, hloop, -⟩
    have hval : (Accepting.acceptHandRead n s).val = .ok true := by rw [hloop]
    cases hrefuses : s.refuses with
    | some e =>
      rw [Accepting.never_of_refused hrefuses (hfatal e hrefuses) n] at hval
      cases hval
    | none =>
      refine ⟨rfl, ?_⟩
      by_contra hge
      rw [Accepting.never_of_le ⟨hrefuses, hidle⟩ (by omega) n] at hval
      cases hval
  · rintro ⟨haccepts, hlt⟩
    exact Accepting.acceptEnds_of_lt ⟨haccepts, hidle⟩ hlt

/-- Two connections wait, and three descriptors are free. -/
theorem accept_ends_iff_of_three :
    Accepting.AcceptEnds ⟨[true, true, false, false, false], 2, none, 1⟩ ↔
      (none : Option AcceptErrno) = none ∧
        2 < Accepting.free ⟨[true, true, false, false, false], 2, none, 1⟩ :=
  accept_ends_iff (by decide) (by intro e he; cases he)

/-- The process has no descriptor left and nobody waits; one connection waits and one descriptor is
left; the kernel has no memory. -/
theorem accept_never_ends :
    ¬Accepting.AcceptEnds ⟨[true], 0, none, 0⟩ ∧
      ¬Accepting.AcceptEnds ⟨[true, false], 1, none, 0⟩ ∧
      ¬Accepting.AcceptEnds ⟨[true, false], 0, some .ENOMEM, 0⟩ := by
  refine ⟨?_, ?_, ?_⟩
  · rintro ⟨n, s', es, hloop, -⟩
    have hnever := Accepting.never_of_le (s := ⟨[true], 0, none, 0⟩) ⟨rfl, by decide⟩
      (by decide) n
    rw [hloop] at hnever
    cases hnever
  · rintro ⟨n, s', es, hloop, -⟩
    have hnever := Accepting.never_of_le (s := ⟨[true, false], 1, none, 0⟩) ⟨rfl, by decide⟩
      (by decide) n
    rw [hloop] at hnever
    cases hnever
  · rintro ⟨n, s', es, hloop, -⟩
    have hnever := Accepting.never_of_refused (s := ⟨[true, false], 0, some .ENOMEM, 0⟩) rfl
      rfl n
    rw [hloop] at hnever
    cases hnever

end Cannet.Net
