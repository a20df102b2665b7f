import Cannet.Net.Loop.Lives

/-!
# Requests and the life they were made in

A functor in the queue holds the connection object and nothing of the life it was queued in. When
the object has been reset for another socket in the meantime, `forceCloseInLoop` closes that
socket, and `writeCompleteCallback_` reports the output of the life before. This happens in no run
in which `createConnection` only takes an object from the pool that no such functor is waiting
for (`requests_on_own_life`).
-/

namespace Cannet.Net

open Foundations

variable {β : Type}

/-- Whether a functor is a `forceCloseInLoop` or a `writeCompleteCallback_`. -/
def Functor.isRequest : Functor β → Bool
  | .forceCloseInLoop | .writeCompleteCallback => true
  | _ => false

namespace LoopFunctor

/-- Whether a functor is such a request to connection `i`. -/
def isRequestTo (i : ℕ) : LoopFunctor β → Bool
  | createConnection .. => false
  | connection j _ functor => decide (j = i) && functor.isRequest

def isCreate : LoopFunctor β → Bool
  | createConnection .. => true
  | connection .. => false

/-- What a functor called in `s` may do, when it does `es`: a `forceCloseInLoop` closes the life
it was queued in only, and a `writeCompleteCallback_` runs while that life is the current one. That
life may have been closed by then: the callback can still run on it until the object is reused. -/
def ActsOnOwnLife (s : EventLoop β) (es : List (LifeEffect (Effect β))) : LoopFunctor β → Prop
  | connection i life .forceCloseInLoop =>
    ∀ e ∈ es, e.effect.isClose = true → e.obj = i ∧ e.life = life
  | connection i life .writeCompleteCallback => s.life i = life
  | _ => True

instance (s : EventLoop β) (es : List (LifeEffect (Effect β))) :
    ∀ functor : LoopFunctor β, Decidable (functor.ActsOnOwnLife s es)
  | connection i life .forceCloseInLoop =>
    inferInstanceAs (Decidable (∀ e ∈ es, e.effect.isClose = true → e.obj = i ∧ e.life = life))
  | connection i life .writeCompleteCallback => inferInstanceAs (Decidable (s.life i = life))
  | createConnection .. | connection _ _ (.sendInLoop _) | connection _ _ .shutdownInLoop
  | connection _ _ .startReadInLoop | connection _ _ .stopReadInLoop => isTrue trivial

end LoopFunctor

/-- The functor a step of the loop calls. -/
def called (call : LoopCall β) : Option (LoopFunctor β) :=
  match call.input with
  | .runFunctor .. => call.before.running.head?
  | _ => none

/-- The step does not act on a life other than the one it was asked for in. -/
def ActsOnOwnLife (call : LoopCall β) : Prop :=
  ∀ functor ∈ called call, functor.ActsOnOwnLife call.before call.outcome.trace

/-- If the step takes a connection from the pool, no request to it is waiting. -/
def ReusesIdle (call : LoopCall β) : Prop :=
  ∀ functor ∈ called call, functor.isCreate = true →
    ∀ back ∈ call.before.connectionsPool.getLast?, ∀ i ∈ back,
      ∀ queued ∈ call.before.running.tail ++ call.before.functors, queued.isRequestTo i = false

instance : DecidablePred (ActsOnOwnLife (β := β)) := fun _ =>
  inferInstanceAs (Decidable (∀ _ ∈ _, _))

instance : DecidablePred (ReusesIdle (β := β)) := fun _ =>
  inferInstanceAs (Decidable (∀ _ ∈ _, _ → ∀ _ ∈ _, ∀ _ ∈ _, ∀ _ ∈ _, _))

/-- The invariant: a request in the queue is of the current life of its connection. -/
def OwnRequests (s : EventLoop β) : Prop :=
  ∀ i life functor, .connection i life functor ∈ s.running ++ s.functors →
    functor.isRequest = true → life = s.life i

namespace OwnRequests

open EventLoop

variable {s s' : EventLoop β}

theorem performed (h : OwnRequests s) {i : ℕ} {es : List (Effect β)} (hp : Performed s s' i es) :
    OwnRequests s' := by
  intro j life functor hmem hreq
  rw [hp.life]
  rw [hp.running, hp.functors, ← List.append_assoc] at hmem
  rcases List.mem_append.1 hmem with hmem | hmem
  · exact h j life functor hmem hreq
  · obtain ⟨g, -, hg⟩ := List.mem_map.1 hmem
    cases hg
    rfl

theorem onConnection (h : OwnRequests s) (i : ℕ) (x : Conn β Unit) :
    OwnRequests (EventLoop.onConnection i x s).state := by
  obtain ⟨s', hs', hp⟩ := onConnection_spec i x s
  rw [hs']
  have hsame : OwnRequests { s with conn := Function.update s.conn i (x (s.conn i)).state } := h
  exact hsame.performed hp

/-- A connection that no request is waiting for begins another life. -/
theorem reused [Inhabited β] (h : OwnRequests s) {i : ℕ} {sockFd : ℤ}
    (hidle : ∀ queued ∈ s.running ++ s.functors, queued.isRequestTo i = false) :
    OwnRequests (s.reused sockFd i) := by
  intro j life functor hmem hreq
  have hne : j ≠ i := by
    rintro rfl
    have hfree := hidle _ hmem
    simp [LoopFunctor.isRequestTo, hreq] at hfree
  show life = Function.update s.life i (s.life i + 1) j
  rw [Function.update_of_ne hne]
  exact h j life functor hmem hreq

theorem createConnection [Inhabited β] (h : OwnRequests s) (sockFd : ℤ)
    (connectCallback messageCallback writeCompleteCallback : Option Callback)
    (hidle : ∀ back ∈ s.connectionsPool.getLast?, ∀ i ∈ back,
      ∀ queued ∈ s.running ++ s.functors, queued.isRequestTo i = false) :
    OwnRequests (EventLoop.createConnection sockFd connectCallback messageCallback
      writeCompleteCallback s).state := by
  rcases hpool : s.connectionsPool.getLast? with _ | _ | i
  · rw [createConnection_new s _ _ _ _ hpool, Outcome.state_after]
    have hsame : OwnRequests
        (s.extended sockFd connectCallback messageCallback writeCompleteCallback) := h
    exact hsame.onConnection _ _
  · rw [createConnection_null s _ _ _ _ hpool]
    exact h
  · rw [createConnection_reuse s _ _ _ _ hpool, Outcome.state_after]
    exact (h.reused (hidle _ hpool i rfl)).onConnection _ _

/-- One step keeps the invariant, if it reuses idle connections only. -/
theorem step [Inhabited β] (h : OwnRequests s) (op : LoopOp β)
    (hidle : ReusesIdle (Call.make LoopOp.exec op s)) : OwnRequests (op.exec s).state := by
  cases op with
  | newConnection sockFd connectCallback messageCallback writeCompleteCallback =>
    intro j life functor hmem
    rw [LoopOp.exec, EventLoop.newConnection, Act.modify_apply] at hmem
    simp only [← List.append_assoc, List.mem_append, List.mem_singleton, reduceCtorEq,
      or_false] at hmem
    exact h j life functor (List.mem_append.2 hmem)
  | handleEvent i callback => exact h.onConnection i _
  | request i r => exact h.onConnection i _
  | swapFunctors =>
    intro j life functor hmem
    rw [LoopOp.exec, EventLoop.swapFunctors, Act.modify_apply, List.append_nil] at hmem
    exact h j life functor (List.mem_append_right _ hmem)
  | runFunctor w f =>
    rw [LoopOp.exec]
    cases hrunning : s.running with
    | nil =>
      rw [runFunctor_nil w f hrunning]
      exact h
    | cons functor rest =>
      rw [runFunctor_cons w f hrunning]
      have hrest : OwnRequests { s with running := rest } := fun i life g hmem =>
        h i life g (by
          rw [hrunning]
          exact List.mem_cons_of_mem functor hmem)
      cases functor with
      | createConnection sockFd connectCallback messageCallback writeCompleteCallback =>
        refine hrest.createConnection sockFd _ _ _ fun back hback i hi queued hmem => ?_
        refine hidle _ (by rw [called, Call.make_input, Call.make_before, hrunning]; rfl) rfl
          back hback i hi queued ?_
        rwa [Call.make_before, hrunning]
      | connection i life g => exact hrest.onConnection i _

/-- Under the invariant the functor that is called acts on its own life. -/
theorem actsOnOwnLife [Inhabited β] (h : OwnRequests s) (op : LoopOp β) :
    ActsOnOwnLife (Call.make LoopOp.exec op s) := by
  intro functor hcalled
  cases op with
  | runFunctor w f =>
    obtain ⟨rest, hrunning⟩ := List.head?_eq_some_iff.1 hcalled
    rw [Call.make_before] at hrunning
    have hown : ∀ i life g, functor = .connection i life g → g.isRequest = true →
        life = s.life i := by
      rintro i life g rfl hreq
      exact h i life g (by simp [hrunning]) hreq
    cases functor with
    | createConnection => trivial
    | connection i life g =>
      cases g with
      | forceCloseInLoop =>
        intro e he _
        rw [Call.make_outcome, LoopOp.exec, runFunctor_cons w f hrunning] at he
        obtain ⟨e, -, rfl⟩ := List.mem_map.1 he
        exact ⟨rfl, (hown i life _ rfl rfl).symm⟩
      | writeCompleteCallback => exact (hown i life _ rfl rfl).symm
      | _ => trivial
  | _ => cases hcalled

end OwnRequests

/-- **Requests act on the life they were made in** in every run in which a connection is only
taken from the pool when no request to it is waiting. -/
theorem requests_on_own_life [Inhabited β] {calls : List (LoopCall β)} {s : EventLoop β}
    (h : Run LoopOp.exec (fun calls call => Scheduled calls call ∧ ReusesIdle call)
      EventLoop.start calls s) :
    (∀ call ∈ calls, ActsOnOwnLife call) ∧
      ∀ op, ActsOnOwnLife (Call.make LoopOp.exec op s) := by
  have hboth : OwnRequests s ∧ ∀ call ∈ calls, ActsOnOwnLife call := by
    refine h.invariant (I := fun calls s => OwnRequests s ∧ ∀ call ∈ calls, ActsOnOwnLife call)
      ⟨fun i life functor hmem => absurd hmem List.not_mem_nil,
        fun call hcall => absurd hcall List.not_mem_nil⟩ ?_
    rintro calls s op ⟨hown, hcalls⟩ ⟨-, hidle⟩ -
    refine ⟨hown.step op hidle, fun call hcall => ?_⟩
    rcases List.mem_append.1 hcall with hcall | hcall
    · exact hcalls call hcall
    · rw [List.mem_singleton.1 hcall]
      exact hown.actsOnOwnLife op
  exact ⟨hboth.2, hboth.1.actsOnOwnLife⟩

/-- A connection closed by force and by its peer is reused once its request has been run. -/
theorem requests_on_own_life_of_reuse :
    ∃ calls s, Run (LoopOp.exec (β := ℕ))
        (fun calls call => Scheduled calls call ∧ ReusesIdle call) EventLoop.start calls s ∧
      s.life 0 = 1 ∧ (∀ call ∈ calls, ActsOnOwnLife call) ∧
      ∀ op, ActsOnOwnLife (Call.make LoopOp.exec op s) := by
  have hrun : Run (LoopOp.exec (β := ℕ))
      (fun calls call => Scheduled calls call ∧ ReusesIdle call) EventLoop.start _ _ :=
    run_replay [.newConnection 5 (some 0) (some 1) none, .swapFunctors,
      .runFunctor (.ok 0) (.ok 0), .request 0 .forceClose, .newConnection 6 (some 0) (some 1) none,
      .handleEvent 0 (.readCallback (.ok [])), .swapFunctors, .runFunctor (.ok 0) (.ok 0),
      .runFunctor (.ok 0) (.ok 0)] (by decide +kernel)
  exact ⟨_, _, hrun, by decide +kernel, requests_on_own_life hrun⟩

/-- Socket 6 is closed by a request that was made on the life of the object before, which its peer
has ended in the meantime. -/
theorem stale_forceClose_closes_next_life :
    ¬∀ (calls : List (LoopCall ℕ)) (s : EventLoop ℕ),
      Run LoopOp.exec Scheduled EventLoop.start calls s → ∀ call ∈ calls, ActsOnOwnLife call := by
  intro h
  have hrun : Run (LoopOp.exec (β := ℕ)) Scheduled EventLoop.start _ _ :=
    run_replay [.newConnection 5 (some 0) (some 1) none, .swapFunctors,
      .runFunctor (.ok 0) (.ok 0), .newConnection 6 (some 0) (some 1) none, .request 0 .forceClose,
      .handleEvent 0 (.readCallback (.ok [])), .swapFunctors, .runFunctor (.ok 0) (.ok 0),
      .runFunctor (.ok 0) (.ok 0)] (by decide +kernel)
  have hall := h _ _ hrun
  revert hall
  decide +kernel

end Cannet.Net
