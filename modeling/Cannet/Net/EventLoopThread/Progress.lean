import Cannet.Net.EventLoopThread.Start
import Cannet.Net.Wakeup.Start
import Mathlib.Algebra.BigOperators.Intervals

/-!
# A pool's start comes to its end

Each step that `start` may have to wait for makes a number smaller (`weight_lt`), so the threads go
on until all of them wait. If nobody tells a loop to stop meanwhile, no loop has ended then, and
`start` has returned with what `EventLoopThreadPool.start` puts in `loops_` in one step.
-/

namespace Cannet.Net

open Foundations Base EventLoopThread

variable {F T : Type}

/-! ## Only so many steps -/

def ThreadPlace.weight : ThreadPlace → ℕ
  | unborn | ended => 0
  | born => 8
  | numbered => 7
  | counted => 5
  | inLoop => 1

/-- What is left to do for a thread: of the loop, the initial callback and a call that the thread
makes itself. -/
def EventLoopThread.weight (t : EventLoopThread F T) : ℕ :=
  t.place.weight + if t.place = .inLoop then
    (if t.loop.phase = .callback then 3 else 0) + (if t.loop.caller none = .idle then 0 else 1)
  else 0

/-- One if the thread that waits is not blocked. -/
def unblocked {σ : Type} (m : Monitor Unit σ) : ℕ := if m.waiter () = .blocked then 0 else 1

theorem unblocked_le {σ : Type} (m : Monitor Unit σ) : unblocked m ≤ 1 := by
  rw [unblocked]
  split <;> omega

/-- What is left to do for `start` on its current thread. -/
def StartCall.weight (t : EventLoopThread F T) : StartCall → ℕ
  | testing => 1
  | latched => 6 + unblocked t.latch
  | asserting => 5
  | waiting => 3 + unblocked t.shared
  | found => 2
  | returned => 0

/-- The threads that are not started yet. -/
def StartCall.left (current numThreads : ℕ) : StartCall → ℕ
  | testing => numThreads - current
  | returned => 0
  | _ => numThreads - (current + 1)

/-- The step of a loop that `start` may have to wait for. -/
def ThreadOp.isOwn : ThreadOp F T → Bool
  | queueInLoopEnd none | quitEnd none => true
  | _ => false

theorem StartOp.isOwn_inner {op : StartOp F T} {inner : ThreadOp F T} (hown : op.isOwn = true)
    (hinner : op.inner = some inner) : inner.isOwn = true := by
  cases op with
  | inLoop i op =>
    obtain rfl := Option.some.inj hinner
    cases op with
    | queueInLoopEnd t | quitEnd t =>
      cases t with
      | none => rfl
      | some t => cases hown
    | _ => cases hown
  | _ => cases hinner

variable [DecidableEq T]

namespace EventLoopThread

variable {t t' : EventLoopThread F T} {ptr : LoopPtr}

/-- The end of a call that the loop's own thread makes. -/
theorem inLoop_weight {inner : ThreadOp F T} {es : List (LoopEvent F)} {loop : LoopThread F T}
    (hstep : Stepped t.loop inner es loop) (hown : inner.isOwn = true)
    (hplace : t.place = .inLoop) :
    ({ t with loop := loop } : EventLoopThread F T).weight < t.weight := by
  cases hstep with
  | @wake d h =>
    cases d with
    | some d => cases hown
    | none => simp [weight, hplace, h]
  | skip h => simp [weight, hplace, h]
  | quitSkip h => simp [weight, hplace, h]
  | _ => cases hown

/-- **A thread's step** makes its weight smaller, by more than it gives to `start`. -/
theorem Goes.weight_lt {inner : Option (ThreadOp F T)} (h : t.Goes ptr inner t')
    (hown : ∀ op, inner = some op → op.isOwn = true) (starter : StartCall) :
    t'.weight < t.weight ∧ t'.weight + starter.weight t' < t.weight + starter.weight t := by
  cases h with
  | setTid hplace => cases starter <;> simp [weight, StartCall.weight, hplace, ThreadPlace.weight]
  | countDown hplace =>
    have hle := unblocked_le t.latch.countDown
    cases starter <;> simp [weight, StartCall.weight, hplace, ThreadPlace.weight]
    omega
  | makeLoop hplace =>
    cases starter <;> simp [weight, StartCall.weight, hplace, ThreadPlace.weight, LoopThread.start]
  | publish hplace hat =>
    have hle := unblocked_le (t.shared.update fun _ => some ptr).notifyAll
    cases starter <;>
      simp [weight, StartCall.weight, hplace, ThreadPlace.weight, hat.1, hat.2]
    omega
  | inLoop hplace hop hstep =>
    have hless := inLoop_weight hstep (hown _ rfl) hplace
    cases starter <;> exact ⟨hless, Nat.add_lt_add_right hless _⟩
  | endLoop hplace hreturned =>
    have hsame : unblocked (t.shared.update fun _ => none) = unblocked t.shared := rfl
    cases starter <;> simp [weight, StartCall.weight, hplace, ThreadPlace.weight, hsame]

end EventLoopThread

namespace StartingPool

variable {s s' : StartingPool F T} {op : StartOp F T} {i n : ℕ} {t : EventLoopThread F T}

/-- What is left to do for the threads that are started. -/
def threadsWeight (s : StartingPool F T) : ℕ :=
  ∑ i ∈ Finset.range s.numThreads, (s.threads i).weight

/-- What is left to do for all threads. -/
def weight (s : StartingPool F T) : ℕ :=
  16 * s.starter.left s.current s.numThreads + s.starter.weight (s.threads s.current) +
    s.threadsWeight

omit [DecidableEq T] in
theorem weight_at {place : StartCall} (h : s.starter = place) :
    s.weight = 16 * place.left s.current s.numThreads + place.weight (s.threads s.current) +
      s.threadsWeight := by
  rw [weight, h]

omit [DecidableEq T] in
/-- One of the first threads goes on. -/
theorem threadsWeight_withThread (hi : i < s.numThreads) :
    (s.withThread i t).threadsWeight + (s.threads i).weight = s.threadsWeight + t.weight := by
  have hmem := Finset.mem_range.2 hi
  have hrest : ∑ j ∈ (Finset.range s.numThreads).erase i, ((s.withThread i t).threads j).weight =
      ∑ j ∈ (Finset.range s.numThreads).erase i, (s.threads j).weight :=
    Finset.sum_congr rfl fun j hj => by rw [withThread_other (Finset.ne_of_mem_erase hj)]
  have hnew := Finset.add_sum_erase _ (fun j => ((s.withThread i t).threads j).weight) hmem
  have hold := Finset.add_sum_erase _ (fun j => (s.threads j).weight) hmem
  rw [withThread_self] at hnew
  change _ = (s.withThread i t).threadsWeight at hnew
  change _ = s.threadsWeight at hold
  omega

omit [DecidableEq T] in
/-- `start` does something with its current thread. -/
theorem here_weight_lt (hlt : s.current < s.numThreads) (place : StartCall)
    (hless : 16 * place.left s.current s.numThreads + place.weight t + t.weight <
      16 * s.starter.left s.current s.numThreads + s.starter.weight (s.threads s.current) +
        (s.threads s.current).weight) :
    ({ s.withThread s.current t with starter := place } : StartingPool F T).weight < s.weight := by
  have hsum := threadsWeight_withThread (t := t) hlt
  show 16 * place.left s.current s.numThreads +
    place.weight ((s.withThread s.current t).threads s.current) +
      (s.withThread s.current t).threadsWeight < _
  rw [withThread_self, weight]
  omega

/-- A thread that makes a step was started. -/
theorem Starting.started_of_goes {inner : Option (ThreadOp F T)} (h : s.Starting)
    (hgoes : (s.threads i).Goes (.thread i) inner t) : i < s.numThreads := by
  have hborn := hgoes.born.1
  have hle : i ≤ s.current := Nat.le_of_not_lt fun hlt => hborn (h.later i hlt)
  rcases Nat.lt_or_eq_of_le hle with hlt | rfl
  · exact Nat.lt_of_lt_of_le hlt h.bounded
  · have hknows := h.knows
    cases hstarter : s.starter with
    | testing =>
      rw [hstarter] at hknows
      exact absurd hknows hborn
    | returned =>
      rw [hstarter] at hknows
      exact absurd hknows.2 hborn
    | latched | asserting | waiting | found =>
      rw [hstarter] at hknows
      exact hknows.1

/-- **Every step makes the weight smaller** that `start` may have to wait for. -/
theorem Starting.weight_lt (h : s.Starting) (hstep : Stepped s op s') (hown : op.isOwn = true) :
    s'.weight < s.weight := by
  have hknows := h.knows
  cases hstep with
  | @thread _ i t hgoes =>
    obtain ⟨hless, hboth⟩ := hgoes.weight_lt (fun inner => StartOp.isOwn_inner hown) s.starter
    have hsum := threadsWeight_withThread (t := t) (h.started_of_goes hgoes)
    show 16 * s.starter.left s.current s.numThreads +
      s.starter.weight ((s.withThread i t).threads s.current) +
        (s.withThread i t).threadsWeight < _
    rw [weight_at rfl]
    by_cases hi : s.current = i
    · subst hi
      rw [withThread_self]
      omega
    · rw [withThread_other hi]
      omega
  | start hstarter hlt =>
    rw [hstarter] at hknows
    refine here_weight_lt hlt .latched ?_
    have hle := unblocked_le (s.threads s.current).latch
    have hbefore : (s.threads s.current).weight = 0 := by
      rw [EventLoopThread.weight, show (s.threads s.current).place = .unborn from hknows]
      rfl
    rw [hstarter, hbefore]
    show 16 * (s.numThreads - (s.current + 1)) + (6 + unblocked (s.threads s.current).latch) + 8 <
      16 * (s.numThreads - s.current) + 1 + 0
    omega
  | finish hstarter hge =>
    rw [weight_at hstarter]
    show 16 * 0 + 0 + s.threadsWeight < 16 * _ + 1 + s.threadsWeight
    omega
  | @latch b hstarter hwaiter hopen =>
    rw [hstarter] at hknows
    have hbefore : unblocked (s.threads s.current).latch = 1 := if_neg hwaiter
    cases b with
    | true =>
      refine here_weight_lt hknows.1 .asserting ?_
      rw [hstarter]
      show 16 * (s.numThreads - (s.current + 1)) + 5 + (s.threads s.current).weight <
        16 * (s.numThreads - (s.current + 1)) + (6 + unblocked (s.threads s.current).latch) + _
      omega
    | false =>
      refine here_weight_lt hknows.1 s.starter ?_
      rw [hstarter]
      show 16 * _ + (6 + 0) + (s.threads s.current).weight <
        16 * _ + (6 + unblocked (s.threads s.current).latch) + _
      omega
  | assertTid hstarter =>
    rw [weight_at hstarter]
    have hle := unblocked_le (s.threads s.current).shared
    show 16 * (s.numThreads - (s.current + 1)) + (3 + unblocked (s.threads s.current).shared) +
      s.threadsWeight < 16 * (s.numThreads - (s.current + 1)) + 5 + s.threadsWeight
    omega
  | @wait b hstarter hwaiter hfound =>
    rw [hstarter] at hknows
    have hbefore : unblocked (s.threads s.current).shared = 1 := if_neg hwaiter
    cases b with
    | true =>
      refine here_weight_lt hknows.1 .found ?_
      rw [hstarter]
      show 16 * (s.numThreads - (s.current + 1)) + 2 + (s.threads s.current).weight <
        16 * (s.numThreads - (s.current + 1)) + (3 + unblocked (s.threads s.current).shared) + _
      omega
    | false =>
      refine here_weight_lt hknows.1 s.starter ?_
      rw [hstarter]
      show 16 * _ + (3 + 0) + (s.threads s.current).weight <
        16 * _ + (3 + unblocked (s.threads s.current).shared) + _
      omega
  | push hstarter =>
    rw [weight_at hstarter]
    show 16 * (s.numThreads - (s.loops ++ [_]).length) + 1 + s.threadsWeight <
      16 * (s.numThreads - (s.current + 1)) + 2 + s.threadsWeight
    rw [List.length_append, List.length_singleton, current]
    omega
  | wakeLatch | wakeLoop => cases hown

/-- The threads go on to where they wait. -/
theorem Starting.goesOn (h : s.Starting) (hown : op.isOwn = true) (hok : (op.exec s).val = .ok ()) :
    (op.exec s).state.Starting ∧ (op.exec s).state.weight < s.weight :=
  ⟨h.step (stepped hok), h.weight_lt (stepped hok) hown⟩

end StartingPool

/-! ## Loops that nobody stops -/

/-- The loop is not told to stop, and has not ended. -/
structure EventLoopThread.Up (t : EventLoopThread F T) : Prop where
  quit : t.loop.quit = false
  phase : t.loop.phase ≠ .returned
  place : t.place ≠ .ended

/-- The step does not tell a loop to stop. -/
def StaysUp (call : StartingCall F T) : Prop :=
  call.input.inner.map ThreadOp.storesQuit ≠ some true

instance : DecidablePred (StaysUp (F := F) (T := T)) := fun _ => inferInstanceAs (Decidable (_ ≠ _))

omit [DecidableEq T] in
theorem EventLoopThread.init_up : (init : EventLoopThread F T).Up := ⟨rfl, nofun, nofun⟩

theorem EventLoopThread.Goes.up {t t' : EventLoopThread F T} {ptr : LoopPtr}
    {inner : Option (ThreadOp F T)} (h : t.Goes ptr inner t')
    (hup : inner.map ThreadOp.storesQuit ≠ some true) (ht : t.Up) : t'.Up := by
  cases h with
  | setTid | countDown => exact ⟨ht.quit, ht.phase, nofun⟩
  | makeLoop => exact ⟨rfl, nofun, nofun⟩
  | publish => exact ⟨ht.quit, nofun, ht.place⟩
  | endLoop hplace hreturned => exact absurd hreturned ht.phase
  | inLoop hplace hop hstep =>
    cases hstep with
    | publish => exact absurd rfl hop
    | leave hat hquit => exact absurd (ht.quit.symm.trans hquit) nofun
    | store => exact absurd rfl hup
    | enter => exact ⟨rfl, nofun, ht.place⟩
    | wait | poll | handle | runFunctors | handlerEnd | swap | call | functorsEnd | functorEnd =>
      exact ⟨ht.quit, nofun, ht.place⟩
    | handleRead | append | appendByRun | wake | skip | callSelf | quitWake | quitSkip =>
      exact ⟨ht.quit, ht.phase, ht.place⟩

namespace StartingPool

variable {s s' : StartingPool F T} {op : StartOp F T} {n : ℕ} {calls : List (StartingCall F T)}

omit [DecidableEq T] in
theorem up_withThread {i : ℕ} {t : EventLoopThread F T} (h : ∀ j, (s.threads j).Up) (ht : t.Up)
    (j : ℕ) : ((s.withThread i t).threads j).Up := by
  by_cases hj : j = i
  · rw [hj, withThread_self]
    exact ht
  · rw [withThread_other hj]
    exact h j

theorem Stepped.up (hstep : Stepped s op s') (hup : op.inner.map ThreadOp.storesQuit ≠ some true)
    (h : ∀ i, (s.threads i).Up) : ∀ i, (s'.threads i).Up := by
  have hs := h s.current
  cases hstep with
  | thread hgoes => exact up_withThread h (hgoes.up hup (h _))
  | start => exact up_withThread h ⟨hs.quit, hs.phase, nofun⟩
  | latch | wait | wakeLatch | wakeLoop => exact up_withThread h ⟨hs.quit, hs.phase, hs.place⟩
  | finish | assertTid | push => exact h

theorem run_up (h : Run StartOp.exec (fun _ call => StaysUp call) (init n) calls s) :
    ∀ i, (s.threads i).Up :=
  h.invariant (I := fun _ s => ∀ i, (s.threads i).Up) (fun _ => init_up)
    fun _ _ _ hs hup hok => (stepped hok).up hup hs

omit [DecidableEq T] in
/-- What `start` may have to wait for stops no loop. -/
theorem staysUp_of_own (hown : op.isOwn = true) :
    op.inner.map ThreadOp.storesQuit ≠ some true := by
  cases hinner : op.inner with
  | none => nofun
  | some inner =>
    have hinner' := StartOp.isOwn_inner hown hinner
    cases inner with
    | queueInLoopEnd t | quitEnd t => nofun
    | _ => cases hinner'

omit [DecidableEq T] in
/-- The loops that `start` has handed out, when none of them has ended. -/
theorem Starting.loops_eq (h : s.Starting) (hup : ∀ i, (s.threads i).Up) (hn : s.loops.length = n) :
    s.loops = ((List.range n).map .thread).map some := by
  refine List.ext_getElem (by rw [List.length_map, List.length_map, List.length_range, hn]) ?_
  intro i hi hi'
  have hhanded := h.earlier i s.loops[i] (List.getElem?_eq_getElem hi)
  rw [hhanded.2.resolve_right fun hended => (hup i).place hended.2, List.getElem_map,
    List.getElem_map, List.getElem_range]

/-- What `start` may have to wait for does not fail in a loop that has not returned. -/
theorem own_inner_not_fails {inner : ThreadOp F T} {loop : LoopThread F T}
    (hown : inner.isOwn = true) (hphase : loop.phase ≠ .returned) (fault : Abort) :
    (inner.exec loop).val ≠ .error (.fails fault) := by
  intro hfails
  cases inner with
  | queueInLoopEnd t =>
    cases t with
    | some t => cases hown
    | none =>
      have hcaller : loop.caller none = .appended := (Act.await_fails hfails).1
      cases (queueInLoopEnd_returns hcaller hphase).symm.trans hfails
  | quitEnd t =>
    cases t with
    | some t => cases hown
    | none =>
      have hcaller : loop.caller none = .stored := (Act.await_fails hfails).1
      cases (quitEnd_returns hcaller).symm.trans hfails
  | _ => cases hown

/-- A step that `start` may have to wait for is made or waits. -/
theorem Starting.waits (h : s.Starting) (hup : ∀ i, (s.threads i).Up) (hown : op.isOwn = true)
    (hnot : (op.exec s).val ≠ .ok ()) : (op.exec s).val = .error .waits := by
  have hfails : ∀ fault, (op.exec s).val ≠ .error (.fails fault) := by
    intro fault
    cases hinner : op.inner with
    | none => exact h.not_fails hinner fault
    | some inner =>
      have hinner' := StartOp.isOwn_inner hown hinner
      cases op with
      | inLoop i inner' =>
        obtain rfl := Option.some.inj hinner
        have hpublish : inner' ≠ .publish := by
          rintro rfl
          cases hinner'
        intro hfails
        have hx : (inLoop inner' (s.threads i)).val = .error (.fails fault) := hfails
        rw [inLoop_eq hpublish] at hx
        exact own_inner_not_fails hinner' (hup i).phase fault (Act.await_fails hx).2
      | _ => cases hinner
  rcases hval : (op.exec s).val with (_ | fault) | _
  · rfl
  · exact absurd hval (hfails fault)
  · exact absurd hval hnot

/-- **`start` returns with the loops of its threads**, if nobody stops a loop before: from any state
that the threads may have reached in any order of their steps, they can go on by steps that `start`
may have to wait for, no such step can be made for ever, and what is in `loops_` at the end is what
`EventLoopThreadPool.start` puts there in one step. -/
theorem start_returns (h : Run StartOp.exec (fun _ call => StaysUp call) (init n) calls s) :
    (∀ op : StartOp F T, op.isOwn = true → (op.exec s).val = .ok () →
        (op.exec s).state.weight < s.weight) ∧
      (s.Stuck → s.starter = .returned) ∧
      ∃ more s', Run StartOp.exec (fun _ call => StaysUp call) (init n) (calls ++ more) s' ∧
        s'.starter = .returned ∧
        s'.loops = (EventLoopThreadPool.start
          { EventLoopThreadPool.init with numThreads := n }).state.loops.map some := by
  have hend : ∀ {calls : List (StartingCall F T)} {s : StartingPool F T},
      Run StartOp.exec (fun _ call => StaysUp call) (init n) calls s → s.Stuck →
        s.starter = .returned := by
    intro calls s h hstuck
    rcases (run_starting h).1.end_of_stuck hstuck with hreturned | ⟨-, hended⟩
    · exact hreturned
    · exact absurd hended (run_up h _).place
  have hs := (run_starting h).1
  refine ⟨fun op hown hok => (hs.goesOn hown hok).2, hend h, ?_⟩
  have hguard : ∀ (calls : List (StartingCall F T)) (op : StartOp F T) (s : StartingPool F T),
      op.isOwn = true → StaysUp (Call.make StartOp.exec op s) := fun _ _ _ => staysUp_of_own
  have hgo : ∀ (s : StartingPool F T) (op : StartOp F T), s.Starting → op.isOwn = true →
      (op.exec s).val = .ok () →
        (op.exec s).state.Starting ∧ (op.exec s).state.weight < s.weight :=
    fun _ _ hs hown hok => hs.goesOn hown hok
  obtain ⟨more, s', hrun, hs', hwaits⟩ := h.exists_stuck_of_own weight hguard hgo hs
  have hreturned := hend hrun fun op hown => hs'.waits (run_up hrun) hown (hwaits op hown)
  have hknows := hs'.knows
  rw [hreturned] at hknows
  exact ⟨more, s', hrun, hreturned,
    hs'.loops_eq (run_up hrun) (hknows.1.trans (run_starting hrun).2)⟩

/-- Two threads; `start` has blocked for the first one's loop, whose initial callback calls
`queueInLoop`. -/
theorem start_returns_of_two :
    ∃ (calls : List (StartingCall ℕ ℕ)) (s : StartingPool ℕ ℕ),
      Run StartOp.exec (fun _ call => StaysUp call) (init 2) calls s ∧ s.starter = .waiting ∧
        (s.threads 0).shared.waiter () = .blocked ∧
        ∃ more s', Run StartOp.exec (fun _ call => StaysUp call) (init 2) (calls ++ more) s' ∧
          s'.starter = .returned ∧ s'.loops = (EventLoopThreadPool.start
            { EventLoopThreadPool.init with numThreads := 2 }).state.loops.map some := by
  have hrun : Run (StartOp.exec (F := ℕ) (T := ℕ)) (fun _ call => StaysUp call) (init 2) _ _ :=
    run_replay [.startThread, .setTid 0 7, .countDown 0, .waitLatch, .assertTid, .makeLoop 0,
      .waitLoop, .inLoop 0 (.queueInLoop none 5)] (by decide +kernel)
  exact ⟨_, _, hrun, by decide +kernel, by decide +kernel, (start_returns hrun).2.2⟩

end StartingPool

end Cannet.Net
