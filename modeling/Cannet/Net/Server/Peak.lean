import Cannet.Net.Server.Descriptors

/-!
# How many connections a server makes

A loop makes a connection only when all those it has made are live, so it has made as many as were
live at one time, at most (`made_eq_peak`). In a server that is so of every loop, whatever the order
of the steps (`loops_made_for_peak`): the memory that connections take does not grow with their
number over time.
-/

namespace Cannet.Net

open Foundations EventLoop

variable {β : Type}

/-- The number of live connections after a step. -/
def liveAfter (call : LoopCall β) : ℕ := call.outcome.state.inUse.length

/-- The largest number of connections live at one time. -/
def peak (calls : List (LoopCall β)) : ℕ := calls.foldl (fun m call => max m (liveAfter call)) 0

theorem peak_append (calls : List (LoopCall β)) (call : LoopCall β) :
    peak (calls ++ [call]) = max (peak calls) (liveAfter call) := List.foldl_append

/-! ## One loop -/

namespace EventLoop

variable {s : EventLoop β}

theorem length_holds_le (c : TcpConnection β) : c.holds.length ≤ 1 := by
  unfold TcpConnection.holds
  split <;> simp

/-- A live connection is one that was made. -/
theorem length_inUse_le (s : EventLoop β) : s.inUse.length ≤ s.made := by
  have hall : ∀ l : List ℕ, (holdings l fun i => (s.conn i).holds).length ≤ l.length := fun l => by
    induction l with
    | nil => exact Nat.le_refl 0
    | cons i l ih =>
      have hcons : holdings (i :: l) (fun i => (s.conn i).holds) =
          (s.conn i).holds ++ holdings l fun i => (s.conn i).holds := List.flatMap_cons
      have hone := length_holds_le (s.conn i)
      rw [hcons, List.length_append, List.length_cons]
      omega
  have hrange := hall (List.range s.made)
  rwa [List.length_range] at hrange

/-- With nothing in the pool all connections are live. -/
theorem length_inUse_of_pool (h : Placed s) (hpool : s.connectionsPool = []) :
    s.inUse.length = s.made := by
  have hlive : ∀ i < s.made, (s.conn i).Live := fun i hi => by
    by_contra hdead
    have honce := (h.keeps i hi hdead).once
    rw [hpool] at honce
    cases honce
  have hone : ∀ i ∈ List.range s.made, (s.conn i).holds = [(s.conn i).sockFd] := fun i hi =>
    if_pos (hlive i (List.mem_range.1 hi))
  rw [inUse, holdings_congr hone, holdings, List.length_flatMap]
  simp

variable [Inhabited β]

/-- `createConnection` makes a connection when it leaves all of them live. -/
theorem made_createConnection (h : Placed s) {sockFd : ℤ}
    (hfree : ∀ i < s.made, (s.conn i).Live → (s.conn i).sockFd ≠ sockFd)
    (connectCallback messageCallback writeCompleteCallback : Option Callback) {s' : EventLoop β}
    (hs' : (createConnection sockFd connectCallback messageCallback writeCompleteCallback s).state =
      s') : s'.made = s.made ∨ s'.made = s.made + 1 ∧ s'.inUse.length = s'.made := by
  subst hs'
  rcases hpool : s.connectionsPool.getLast? with _ | _ | i
  · right
    have hplaced := h.createConnection hfree connectCallback messageCallback writeCompleteCallback
    rw [createConnection_new s _ _ _ _ hpool, Outcome.state_after] at hplaced ⊢
    let s₁ := s.extended sockFd connectCallback messageCallback writeCompleteCallback
    have hnew : s₁.conn s.made =
        newConn sockFd connectCallback messageCallback writeCompleteCallback :=
      Function.update_self _ _ _
    obtain ⟨hstate, -⟩ := onConnection_connectEstablished (i := s.made) (s := s₁)
      (by rw [hnew]; rfl)
    rw [hstate] at hplaced ⊢
    exact ⟨rfl, length_inUse_of_pool hplaced (List.getLast?_eq_none_iff.1 hpool)⟩
  · exact absurd (List.mem_of_getLast? hpool) h.none_not_mem
  · left
    rw [createConnection_reuse s _ _ _ _ hpool, Outcome.state_after, made_onConnection]
    rfl

/-- **One step**: a connection is made when all are live with it, or none is made. -/
theorem made_step (h : Placed s) (op : LoopOp β)
    (hfree : AcceptsFree (Call.make LoopOp.exec op s)) :
    (op.exec s).state.made = s.made ∨ (op.exec s).state.made = s.made + 1 ∧
      (op.exec s).state.inUse.length = (op.exec s).state.made := by
  cases op with
  | newConnection | swapFunctors => exact .inl rfl
  | handleEvent i callback => exact .inl (made_onConnection i _ s)
  | request i r => exact .inl (made_onConnection i _ s)
  | runFunctor w f =>
    rw [LoopOp.exec]
    cases hrunning : s.running with
    | nil =>
      rw [runFunctor_nil w f hrunning]
      exact .inl rfl
    | cons functor rest =>
      have haccepts := hfree functor (by simp [called, hrunning])
      rw [runFunctor_cons w f hrunning]
      cases functor with
      | createConnection sockFd connectCallback messageCallback writeCompleteCallback =>
        exact made_createConnection (s := { s with running := rest }) h haccepts _ _ _ rfl
      | connection i life g => exact .inl (made_onConnection i _ _)

end EventLoop

/-- **A loop has made as many connections as were live at one time**, at most, when its sockets are
not those of live connections. -/
theorem made_eq_peak [Inhabited β] {calls : List (LoopCall β)} {s : EventLoop β}
    (h : Run LoopOp.exec Scheduled EventLoop.start calls s)
    (hfree : ∀ call ∈ calls, AcceptsFree call) : s.made = peak calls := by
  suffices hboth : LoopInvariant Standing (traceOf calls) s ∧
      ((∀ call ∈ calls, AcceptsFree call) → Placed s ∧ s.made = peak calls) from (hboth.2 hfree).2
  refine h.invariant (I := fun calls s => LoopInvariant Standing (traceOf calls) s ∧
    ((∀ call ∈ calls, AcceptsFree call) → Placed s ∧ s.made = peak calls))
    ⟨.start Standing, fun _ => ⟨Placed.start, rfl⟩⟩ ?_
  rintro calls s op ⟨hinv, hrest⟩ hop hok
  refine ⟨?_, fun hall => ?_⟩
  · rw [traceOf_append, traceOf_singleton]
    exact hinv.step standing_staged op hop hok
  · obtain ⟨hplaced, hmade⟩ := hrest fun call hcall => hall call (List.mem_append_left _ hcall)
    have hthis : AcceptsFree (Call.make LoopOp.exec op s) := hall _ (by simp)
    refine ⟨hplaced.step hinv op hop hthis hok, ?_⟩
    have hstep := EventLoop.made_step hplaced op hthis
    have hlive := EventLoop.length_inUse_le (op.exec s).state
    rw [peak_append, liveAfter, Call.make_outcome]
    omega

/-- **Each loop of a server has made as many connections as were live on it at one time**, after
every run of the server. -/
theorem loops_made_for_peak [Inhabited β] {files : List ℤ} {calls : List (ServerCall β)}
    {s : Server β} (h : Run ServerOp.exec Serving (Server.init files) calls s) (ptr : LoopPtr) :
    (s.loops ptr).made = peak (calls.filterMap (loopCallOn ptr)) := by
  have hserves := serves_of_run h
  exact made_eq_peak (hserves.runs ptr) (hserves.free ptr)

/-- Three connections come one after another and two are live at one time: two were made. -/
theorem loops_made_for_peak_of_three :
    ∃ calls s, Run (ServerOp.exec (β := ℕ)) Serving (Server.init [0, 1, 2]) calls s ∧
      (s.loops .base).made = peak (calls.filterMap (loopCallOn .base)) ∧
      (s.loops .base).made = 2 ∧ (s.loops .base).life 0 = 1 := by
  have hrun : Run (ServerOp.exec (β := ℕ)) Serving (Server.init [0, 1, 2]) _ _ :=
    run_replay [.start, .accept 5, .accept 6, .onLoop .base .swapFunctors,
      .onLoop .base (.runFunctor (.ok 0) (.ok 0)), .onLoop .base (.runFunctor (.ok 0) (.ok 0)),
      .onLoop .base (.handleEvent 0 .closeCallback), .accept 5, .onLoop .base .swapFunctors,
      .onLoop .base (.runFunctor (.ok 0) (.ok 0))] (by decide +kernel)
  exact ⟨_, _, hrun, loops_made_for_peak hrun _, by decide +kernel, by decide +kernel⟩

end Cannet.Net
