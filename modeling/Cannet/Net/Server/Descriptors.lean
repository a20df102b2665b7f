import Cannet.Net.Server

/-!
# Who owns a descriptor

In every run of a server, whatever the order of the steps of its loops, each socket that was
accepted is open in exactly one place: it waits in the queue of one loop, or is that of one live
connection. A loop closes descriptors that are open and its own (`each_descriptor_owned_once`).

The kernel gives a descriptor again when it has been closed, so no loop is ever handed a socket that
a live connection of any loop has: what the results about one loop suppose of the sockets it is
given is so in a server.
-/

namespace Cannet.Net

open Foundations

variable {β : Type}

/-- The socket accepted. -/
def acceptedBy (call : ServerCall β) : List ℤ :=
  match call.input with
  | .accept connFd => [connFd]
  | _ => []

/-- The descriptors that a step of a loop closes. -/
def closedBy (call : ServerCall β) : List ℤ := closedFds (call.outcome.trace.map (·.effect))

/-- The descriptors that the loops hold. -/
def Server.holds (s : Server β) : List ℤ := holdings s.running fun ptr => (s.loops ptr).holds

/-! ## One loop -/

/-- A socket that waits is not in use, when nothing is held twice. -/
theorem acceptsFree_of_nodup [Inhabited β] {s : EventLoop β} (h : s.holds.Nodup) (op : LoopOp β) :
    AcceptsFree (Call.make LoopOp.exec op s) := by
  intro functor hcalled
  cases op with
  | newConnection | handleEvent | request | swapFunctors => cases hcalled
  | runFunctor w f =>
    have hhead : s.running.head? = some functor := hcalled
    cases functor with
    | connection => trivial
    | createConnection sockFd connectCallback messageCallback writeCompleteCallback =>
      intro i (hi : i < s.made) (hlive : (s.conn i).Live) (hsame : (s.conn i).sockFd = sockFd)
      have hwaits : sockFd ∈ s.awaiting := by
        refine List.mem_filterMap.2 ⟨_, List.mem_append_left _ (List.mem_of_head? hhead), rfl⟩
      have huse : sockFd ∈ s.inUse := by
        refine mem_holdings.2 ⟨i, List.mem_range.2 hi, ?_⟩
        rw [TcpConnection.holds, if_pos hlive]
        exact List.mem_singleton.2 hsame.symm
      exact (List.nodup_append.1 h).2.2 _ hwaits _ huse rfl

/-- A call of the pool for a loop gives one that runs. -/
theorem EventLoopThreadPool.getNextLoop_returned {s : EventLoopThreadPool}
    (hok : (getNextLoop s).val = .ok ()) :
    ∃ ptr s', getNextLoop s = ⟨.ok (), s', [ptr]⟩ ∧ (ptr = s.baseLoop ∨ ptr ∈ s.loops) ∧
      s'.loops = s.loops ∧ s'.baseLoop = s.baseLoop ∧ s'.started = s.started := by
  by_cases hstarted : s.started = true
  · by_cases hloops : s.loops = []
    · exact ⟨_, _, getNextLoop_base hstarted hloops, .inl rfl, rfl, rfl, rfl⟩
    by_cases hnext : s.next < s.loops.length
    · by_cases hnum : s.numThreads = 0
      · rw [getNextLoop_zero hstarted hnext hnum] at hok
        cases hok
      · exact ⟨_, _, getNextLoop_apply hstarted hnext hnum, .inr (List.getElem_mem _), rfl, rfl,
          rfl⟩
    · rw [getNextLoop_outOfRange hstarted hloops (Nat.not_lt.1 hnext)] at hok
      cases hok
  · rw [getNextLoop, Act.get_bind, Act.check_neg _ hstarted] at hok
    cases hok

theorem mapError_ok {δ δ' : Type} {f : δ → δ'} {v : Except δ Unit} (h : v.mapError f = .ok ()) :
    v = .ok () := by
  cases v with
  | error d => cases h
  | ok => rfl

namespace Server

variable {s s' : Server β}

theorem setThreadNum_returned {numThreads : ℤ} (hok : (setThreadNum numThreads s).val = .ok ()) :
    setThreadNum numThreads s = ⟨.ok (), { s with
      threadPool := { s.threadPool with numThreads := numThreads.toNat } }, []⟩ := by
  by_cases hpos : 0 ≤ numThreads
  · have hset : TcpServer.setThreadNum numThreads s.threadPool =
        ⟨.ok (), { s.threadPool with numThreads := numThreads.toNat }, []⟩ := by
      rw [TcpServer.setThreadNum, Act.check_pos _ hpos]
      rfl
    rw [setThreadNum, onThreadPool, hset]
    rfl
  · rw [setThreadNum, onThreadPool, TcpServer.setThreadNum, Act.check_neg _ hpos] at hok
    cases hok

/-- The pool with its threads started. -/
def launched (threadPool : EventLoopThreadPool) : EventLoopThreadPool :=
  { threadPool with
    started := true
    loops := threadPool.loops ++ (List.range threadPool.numThreads).map .thread }

/-- A server starts its threads once. -/
theorem start_returned (hok : (start s).val = .ok ()) :
    start s = ⟨.ok (), s, []⟩ ∨ s.threadPool.started = false ∧
      EventLoopThreadPool.start s.threadPool = ⟨.ok (), launched s.threadPool, []⟩ ∧
      start s = ⟨.ok (), { s with started := true, threadPool := launched s.threadPool }, []⟩ := by
  rw [start, Act.get_bind, Act.ite_apply] at hok ⊢
  by_cases hstarted : s.started = false
  · right
    rw [if_pos hstarted, Act.modify_bind] at hok ⊢
    have hunstarted : s.threadPool.started = false := by
      by_contra hagain
      rw [onThreadPool, EventLoopThreadPool.start, Act.get_bind, Act.check_neg _ hagain] at hok
      cases hok
    have hpool : EventLoopThreadPool.start s.threadPool =
        ⟨.ok (), launched s.threadPool, []⟩ := by
      rw [EventLoopThreadPool.start, Act.get_bind, Act.check_pos _ hunstarted]
      rfl
    refine ⟨hunstarted, hpool, ?_⟩
    rw [onThreadPool, hpool]
    rfl
  · left
    rw [if_neg hstarted]
    rfl

/-- A round that accepts a connection hands its socket to a loop that runs. -/
theorem acceptRound_returned {connFd : ℤ} (hok : (acceptRound connFd s).val = .ok ()) :
    ∃ ptr threadPool, EventLoopThreadPool.getNextLoop s.threadPool = ⟨.ok (), threadPool, [ptr]⟩ ∧
      acceptRound connFd s = ⟨.ok (), { s with
        threadPool := threadPool
        loops := Function.update s.loops ptr (EventLoop.newConnection connFd s.connectionCallback
          s.messageCallback s.writeCompleteCallback (s.loops ptr)).state
        descriptors := connFd :: s.descriptors }, []⟩ := by
  let s₁ : Server β := { s with descriptors := connFd :: s.descriptors }
  have hround : acceptRound connFd s = newConnection connFd s₁ := Act.modify_bind ..
  rw [hround] at hok ⊢
  rw [newConnection, Act.get_bind] at hok ⊢
  obtain ⟨_, hfirst, -⟩ := Act.bind_returned hok
  have hpool : (EventLoopThreadPool.getNextLoop s₁.threadPool).val = .ok () := by
    have hmap : (EventLoopThreadPool.getNextLoop s.threadPool).val.mapError ServerAbort.threadPool =
        .ok () := congrArg Outcome.val hfirst
    exact mapError_ok hmap
  obtain ⟨ptr, threadPool, hnext, -⟩ := EventLoopThreadPool.getNextLoop_returned hpool
  refine ⟨ptr, threadPool, hnext, ?_⟩
  have hgive : onThreadPool EventLoopThreadPool.getNextLoop s₁ =
      ⟨.ok (), { s₁ with threadPool := threadPool }, []⟩ := by
    rw [onThreadPool, hnext]
    rfl
  rw [Act.bind_ok hgive, nextLoop, hnext]
  rfl

end Server

/-! ## The process -/

/-- After the calls made so far. -/
structure Serves [Inhabited β] (calls : List (ServerCall β)) (s : Server β) : Prop where
  base : s.threadPool.baseLoop = .base
  unstarted : s.threadPool.started = false → s.threadPool.loops = []
  threads : ∃ n, s.threadPool.loops = (List.range n).map .thread
  idle : ∀ ptr, ptr ∉ s.running → s.loops ptr = EventLoop.start
  runs : ∀ ptr, Run LoopOp.exec Scheduled EventLoop.start (calls.filterMap (loopCallOn ptr))
    (s.loops ptr)
  free : ∀ ptr, ∀ call ∈ calls.filterMap (loopCallOn ptr), AcceptsFree call
  owned : s.descriptors.Perm s.holds
  nodup : s.descriptors.Nodup
  apart : ∀ fd ∈ s.descriptors, fd ∉ s.files
  exchange : Exchange [] (calls.flatMap acceptedBy) (calls.flatMap closedBy) s.descriptors
  closes : ∀ call ∈ calls, ∀ fd ∈ closedBy call, fd ∈ call.before.descriptors

namespace Serves

variable [Inhabited β] {calls : List (ServerCall β)} {s s' : Server β} {call : ServerCall β}

theorem init (files : List ℤ) : Serves [] (Server.init files : Server β) where
  base := rfl
  unstarted _ := rfl
  threads := ⟨0, rfl⟩
  idle _ _ := rfl
  runs _ := .nil
  free _ _ h := by cases h
  owned := List.Perm.refl _
  nodup := List.nodup_nil
  apart _ h := by cases h
  exchange := .refl _
  closes _ h := by cases h

/-- The loops that run are different. -/
theorem running_nodup (h : Serves calls s) : s.running.Nodup := by
  obtain ⟨n, hn⟩ := h.threads
  rw [Server.running, hn, List.nodup_cons]
  refine ⟨?_, List.nodup_range.map fun i j hij => LoopPtr.thread.inj hij⟩
  simp

theorem holds_nodup (h : Serves calls s) : s.holds.Nodup := h.owned.nodup_iff.1 h.nodup

/-- A step that none of the loops takes, and that opens no connection. -/
theorem quiet (h : Serves calls s) (hloop : ∀ ptr, loopCallOn ptr call = none)
    (haccepted : acceptedBy call = []) (hclosed : closedBy call = [])
    (hbase : s'.threadPool.baseLoop = .base)
    (hunstarted : s'.threadPool.started = false → s'.threadPool.loops = [])
    (hthreads : ∃ n, s'.threadPool.loops = (List.range n).map .thread)
    (hrunning : ∀ ptr ∈ s.running, ptr ∈ s'.running) (hholds : s'.holds = s.holds)
    (hloops : s'.loops = s.loops) (hdescriptors : s'.descriptors = s.descriptors)
    (hapart : ∀ fd ∈ s'.descriptors, fd ∉ s'.files) : Serves (calls ++ [call]) s' := by
  have hcalls : ∀ ptr, (calls ++ [call]).filterMap (loopCallOn ptr) =
      calls.filterMap (loopCallOn ptr) := fun ptr => by
    rw [List.filterMap_append, List.filterMap_cons, hloop ptr, List.filterMap_nil, List.append_nil]
  refine ⟨hbase, hunstarted, hthreads, ?_, ?_, ?_, ?_, hdescriptors ▸ h.nodup, hapart, ?_, ?_⟩
  · intro ptr hptr
    rw [hloops]
    exact h.idle ptr fun hmem => hptr (hrunning ptr hmem)
  · intro ptr
    rw [hcalls, hloops]
    exact h.runs ptr
  · intro ptr
    rw [hcalls]
    exact h.free ptr
  · rw [hholds, hdescriptors]
    exact h.owned
  · rw [List.flatMap_append, List.flatMap_append, List.flatMap_singleton, List.flatMap_singleton,
      haccepted, hclosed, List.append_nil, List.append_nil, hdescriptors]
    exact h.exchange
  · intro call' hcall' fd hfd
    rcases List.mem_append.1 hcall' with hbefore | hlast
    · exact h.closes call' hbefore fd hfd
    · rw [List.mem_singleton.1 hlast, hclosed] at hfd
      cases hfd

/-- A step that leaves the pool as it is, or sets the number of its threads. -/
theorem configured (h : Serves calls s) (hloop : ∀ ptr, loopCallOn ptr call = none)
    (haccepted : acceptedBy call = []) (hclosed : closedBy call = []) (numThreads : ℕ)
    (hpool : s'.threadPool = { s.threadPool with numThreads := numThreads })
    (hloops : s'.loops = s.loops) (hdescriptors : s'.descriptors = s.descriptors)
    (hapart : ∀ fd ∈ s'.descriptors, fd ∉ s'.files) : Serves (calls ++ [call]) s' := by
  have hrunning : s'.running = s.running := by
    rw [Server.running, hpool]
    rfl
  refine h.quiet hloop haccepted hclosed ?_ ?_ ?_ (fun ptr hptr => hrunning ▸ hptr) ?_ hloops
    hdescriptors hapart
  · rw [hpool]
    exact h.base
  · rw [hpool]
    exact h.unstarted
  · rw [hpool]
    exact h.threads
  · rw [Server.holds, Server.holds, hrunning, hloops]

/-- The threads of the pool are started: their loops hold nothing. -/
theorem start (h : Serves calls s) (hloop : ∀ ptr, loopCallOn ptr call = none)
    (haccepted : acceptedBy call = []) (hclosed : closedBy call = [])
    (hunstarted : s.threadPool.started = false)
    (hpool : s'.threadPool = Server.launched s.threadPool)
    (hloops : s'.loops = s.loops) (hdescriptors : s'.descriptors = s.descriptors)
    (hfiles : s'.files = s.files) : Serves (calls ++ [call]) s' := by
  have hnone := h.unstarted hunstarted
  have hbefore : s.running = [.base] := by rw [Server.running, hnone]
  have hafter : s'.running = [.base] ++ (List.range s.threadPool.numThreads).map .thread := by
    rw [Server.running, hpool, Server.launched, hnone]
    rfl
  refine h.quiet hloop haccepted hclosed ?_ ?_ ⟨s.threadPool.numThreads, ?_⟩ ?_ ?_ hloops
    hdescriptors ?_
  · rw [hpool]
    exact h.base
  · rw [hpool]
    exact fun hstarted => by cases hstarted
  · rw [hpool, Server.launched, hnone]
    rfl
  · intro ptr hptr
    rw [hafter, ← hbefore]
    exact List.mem_append_left _ hptr
  · have hidle : holdings ((List.range s.threadPool.numThreads).map LoopPtr.thread)
        (fun ptr => (s.loops ptr).holds) = [] := by
      refine List.flatMap_eq_nil_iff.2 fun ptr hptr => ?_
      obtain ⟨i, -, rfl⟩ := List.mem_map.1 hptr
      rw [h.idle (.thread i) (by rw [hbefore]; simp)]
      rfl
    rw [Server.holds, Server.holds, hafter, hloops, holdings_append, hidle, List.append_nil,
      hbefore]
  · rw [hdescriptors, hfiles]
    exact h.apart

/-- **A step of one loop.** -/
theorem onLoop (h : Serves calls s) {ptr : LoopPtr} (hptr : ptr ∈ s.running) (op : LoopOp β)
    (hbefore : call.before = s)
    (hloop : ∀ ptr', call.input.loopOp ptr' s = if ptr = ptr' then some op else none)
    (hop : Scheduled (calls.filterMap (loopCallOn ptr)) (Call.make LoopOp.exec op (s.loops ptr)))
    (hok : (op.exec (s.loops ptr)).val = .ok ())
    (haccepted : acceptedBy call = op.given)
    (hclosed : closedBy call = closedFds (op.exec (s.loops ptr)).trace)
    (hnew : ∀ fd ∈ op.given, fd ∉ s.descriptors ∧ fd ∉ s.files) (hsame : op.given.Nodup)
    (hgiven : op.given ≠ [] → closedBy call = [])
    (hpool : s'.threadPool.loops = s.threadPool.loops)
    (hbase : s'.threadPool.baseLoop = s.threadPool.baseLoop)
    (hstarted : s'.threadPool.started = s.threadPool.started)
    (hloops : s'.loops = Function.update s.loops ptr (op.exec (s.loops ptr)).state)
    (hdescriptors : s'.descriptors =
      (op.given ++ s.descriptors).diff (closedFds (op.exec (s.loops ptr)).trace))
    (hfiles : s'.files = s.files) : Serves (calls ++ [call]) s' := by
  have hrun := h.runs ptr
  have hinv := stagedInvariant_of_run standing_staged hrun
  have hplaced := placed_of_run hrun (h.free ptr)
  have hrunning : s'.running = s.running := by rw [Server.running, hpool, Server.running]
  have hself : s'.loops ptr = (op.exec (s.loops ptr)).state := by
    rw [hloops, Function.update_self]
  have hothers : ∀ q, q ≠ ptr → s'.loops q = s.loops q := fun q hq => by
    rw [hloops, Function.update_of_ne hq]
  -- the exchange of this loop is one of all of them, and of the descriptors that are open
  have hall : Exchange s.holds op.given (closedBy call) s'.holds := by
    rw [Server.holds, Server.holds, hrunning, hclosed]
    refine .party (i := ptr) ?_ h.running_nodup hptr fun q hq => by simp only [hothers q hq]
    simp only [hself]
    exact EventLoop.exchange_step hplaced hinv op hop hok
  rw [← hclosed] at hdescriptors
  have howned : s'.descriptors.Perm s'.holds := by
    rw [hdescriptors]
    exact hall.of_held.diff (h.owned.append_left _)
  have hopen : ∀ fd ∈ s'.descriptors, fd ∈ op.given ++ s.descriptors := by
    rw [hdescriptors]
    exact List.diff_subset _ _
  have hnone : ∀ q, q ≠ ptr → loopCallOn q call = none := fun q hq => by
    rw [loopCallOn, hbefore, hloop, if_neg (Ne.symm hq)]
    rfl
  have hone : loopCallOn ptr call = some (Call.make LoopOp.exec op (s.loops ptr)) := by
    rw [loopCallOn, hbefore, hloop, if_pos rfl]
    rfl
  have hcalls : ∀ q, q ≠ ptr →
      (calls ++ [call]).filterMap (loopCallOn q) = calls.filterMap (loopCallOn q) := fun q hq => by
    rw [List.filterMap_append, List.filterMap_cons, hnone q hq, List.filterMap_nil,
      List.append_nil]
  have hcall : (calls ++ [call]).filterMap (loopCallOn ptr) =
      calls.filterMap (loopCallOn ptr) ++ [Call.make LoopOp.exec op (s.loops ptr)] := by
    rw [List.filterMap_append, List.filterMap_cons, hone, List.filterMap_nil]
  constructor
  · exact hbase.trans h.base
  · exact fun hs => hpool.trans (h.unstarted (hstarted ▸ hs))
  · exact hpool ▸ h.threads
  · intro q hq
    rw [hrunning] at hq
    rw [hothers q fun heq => hq (heq ▸ hptr)]
    exact h.idle q hq
  · intro q
    by_cases hq : q = ptr
    · subst hq
      rw [hcall, hself]
      exact .snoc op hrun hop hok
    · rw [hcalls q hq, hothers q hq]
      exact h.runs q
  · intro q
    by_cases hq : q = ptr
    · subst hq
      rw [hcall]
      refine List.forall_mem_append.2 ⟨h.free q, fun call' hcall' => ?_⟩
      rw [List.mem_singleton.1 hcall']
      exact acceptsFree_of_nodup (held_nodup h.holds_nodup hptr) op
    · rw [hcalls q hq]
      exact h.free q
  · exact howned
  · rw [hdescriptors]
    refine List.Nodup.diff (List.nodup_append.2 ⟨hsame, h.nodup, ?_⟩)
    exact fun fd hfd fd' hfd' heq => (hnew fd hfd).1 (heq ▸ hfd')
  · intro fd hfd
    rw [hfiles]
    rcases List.mem_append.1 (hopen fd hfd) with hgiven | hold
    · exact (hnew fd hgiven).2
    · exact h.apart fd hold
  · rw [List.flatMap_append, List.flatMap_append, List.flatMap_singleton, List.flatMap_singleton,
      haccepted]
    exact h.exchange.trans (hall.congr h.owned howned)
  · intro call' hcall' fd hfd
    rcases List.mem_append.1 hcall' with hearlier | hlast
    · exact h.closes call' hearlier fd hfd
    · rw [List.mem_singleton.1 hlast] at hfd ⊢
      rw [hbefore]
      by_cases hnil : op.given = []
      · rw [hnil] at hall
        exact h.owned.mem_iff.2 (hall.mem_of_released hfd)
      · rw [hgiven hnil] at hfd
        cases hfd

/-- **One step of the process.** -/
theorem step (h : Serves calls s) (op : ServerOp β)
    (hop : Serving calls (Call.make ServerOp.exec op s)) (hok : (op.exec s).val = .ok ()) :
    Serves (calls ++ [Call.make ServerOp.exec op s]) (op.exec s).state := by
  cases op with
  | setThreadNum numThreads =>
    have hset := Server.setThreadNum_returned hok
    refine h.configured (fun _ => rfl) rfl rfl numThreads.toNat ?_ ?_ ?_ ?_ <;>
      rw [ServerOp.exec, hset]
    exact h.apart
  | setConnectionCallback cb =>
    exact h.configured (fun _ => rfl) rfl rfl s.threadPool.numThreads rfl rfl rfl h.apart
  | setMessageCallback cb =>
    exact h.configured (fun _ => rfl) rfl rfl s.threadPool.numThreads rfl rfl rfl h.apart
  | setWriteCompleteCallback cb =>
    exact h.configured (fun _ => rfl) rfl rfl s.threadPool.numThreads rfl rfl rfl h.apart
  | start =>
    rcases Server.start_returned hok with hsame | ⟨hunstarted, -, hstart⟩
    · have hclosed : closedBy (Call.make (ServerOp.exec (β := β)) .start s) = [] := by
        rw [closedBy, Call.make_outcome, ServerOp.exec, hsame]
        rfl
      rw [ServerOp.exec, hsame]
      exact h.configured (fun _ => rfl) rfl hclosed s.threadPool.numThreads rfl rfl rfl h.apart
    · have hclosed : closedBy (Call.make (ServerOp.exec (β := β)) .start s) = [] := by
        rw [closedBy, Call.make_outcome, ServerOp.exec, hstart]
        rfl
      rw [ServerOp.exec, hstart]
      exact h.start (fun _ => rfl) rfl hclosed hunstarted rfl rfl rfl rfl
  | accept connFd =>
    obtain ⟨ptr, threadPool, hnext, hround⟩ := Server.acceptRound_returned hok
    obtain ⟨ptr', threadPool', hnext', hptr, hloops, hbase, hstarted⟩ :=
      EventLoopThreadPool.getNextLoop_returned (s := s.threadPool) (by rw [hnext])
    obtain ⟨-, rfl, hsame⟩ := Outcome.mk.inj (hnext.symm.trans hnext')
    obtain rfl := List.singleton_inj.1 hsame
    have hptr' : ptr ∈ s.running := by
      rw [h.base] at hptr
      exact List.mem_cons.2 hptr
    have hexec : ServerOp.exec (.accept connFd) s = _ := hround
    rw [hexec]
    refine h.onLoop hptr' (.newConnection connFd s.connectionCallback s.messageCallback
      s.writeCompleteCallback) rfl (fun ptr' => ?_) trivial rfl rfl ?_ ?_ (List.nodup_singleton _)
      (fun _ => ?_) hloops hbase hstarted rfl rfl rfl
    · rw [Call.make_input, ServerOp.loopOp, Server.nextLoop, hnext]
      simp only [List.head?_cons, Option.some.injEq]
    · rw [closedBy, Call.make_outcome, hexec]
      rfl
    · intro fd hfd
      rw [List.mem_singleton.1 hfd]
      exact hop
    · rw [closedBy, Call.make_outcome, hexec]
      rfl
  | onLoop ptr op =>
    obtain ⟨hptr, hold, hscheduled⟩ := hop
    have hgiven : op.given = [] := by
      cases op <;> first | rfl | cases hold
    refine h.onLoop hptr op rfl (fun ptr' => rfl) hscheduled (mapError_ok hok)
      hgiven.symm ?_ (fun fd hfd => ?_) ?_ (fun hne => absurd hgiven hne) rfl rfl rfl rfl ?_ rfl
    · have htrace : (ServerOp.exec (.onLoop ptr op) s).trace.map (·.effect) =
          (op.exec (s.loops ptr)).trace := by
        rw [ServerOp.exec, Server.onLoop, List.map_map]
        exact List.map_id _
      rw [closedBy, Call.make_outcome, htrace]
    · rw [hgiven] at hfd
      cases hfd
    · rw [hgiven]
      exact List.nodup_nil
    · rw [hgiven, List.nil_append]
      rfl
  | openFile fd =>
    refine h.configured (fun _ => rfl) rfl rfl s.threadPool.numThreads rfl rfl rfl ?_
    intro fd' hfd' hmem
    rcases List.mem_cons.1 hmem with rfl | hold
    · exact hop.1 hfd'
    · exact h.apart fd' hfd' hold
  | closeFile fd =>
    exact h.configured (fun _ => rfl) rfl rfl s.threadPool.numThreads rfl rfl rfl
      fun fd' hfd' hmem => h.apart fd' hfd' (List.mem_of_mem_erase hmem)

end Serves

theorem serves_of_run [Inhabited β] {files : List ℤ} {calls : List (ServerCall β)} {s : Server β}
    (h : Run ServerOp.exec Serving (Server.init files) calls s) : Serves calls s :=
  h.invariant (Serves.init files) fun _ _ op hserves hop hok => hserves.step op hop hok

/-- Who owns the descriptors of a server. -/
structure DescriptorsOwned [Inhabited β] (calls : List (ServerCall β)) (s : Server β) : Prop where
  /-- A socket that is open waits in one queue, or is that of one live connection. -/
  owned : s.descriptors.Perm s.holds
  once : s.holds.Nodup
  /-- Each was accepted once more than it was closed. -/
  conserved : (calls.flatMap acceptedBy).Perm (s.descriptors ++ calls.flatMap closedBy)
  /-- What a loop closes is a socket that is open, and no other file of the process. -/
  closes : ∀ call ∈ calls, ∀ fd ∈ closedBy call, fd ∈ call.before.descriptors
  apart : ∀ fd ∈ s.descriptors, fd ∉ s.files
  /-- Each loop runs as it would alone, and is never handed the socket of a live connection. -/
  runs : ∀ ptr, Run LoopOp.exec Scheduled EventLoop.start (calls.filterMap (loopCallOn ptr))
    (s.loops ptr)
  free : ∀ ptr, ∀ call ∈ calls.filterMap (loopCallOn ptr), AcceptsFree call
  placed : ∀ ptr, Placed (s.loops ptr)

/-- **Each descriptor is owned once**, after every run of a server. -/
theorem each_descriptor_owned_once [Inhabited β] {files : List ℤ} {calls : List (ServerCall β)}
    {s : Server β} (h : Run ServerOp.exec Serving (Server.init files) calls s) :
    DescriptorsOwned calls s := by
  have hserves := serves_of_run h
  exact {
    owned := hserves.owned
    once := hserves.holds_nodup
    conserved := hserves.exchange.symm
    closes := hserves.closes
    apart := hserves.apart
    runs := hserves.runs
    free := hserves.free
    placed := fun ptr => placed_of_run (hserves.runs ptr) (hserves.free ptr) }

/-- The server has two threads. The first closes its connection; the kernel gives the descriptor
again, and it goes to the other one, where the socket accepted before it still waits. -/
theorem each_descriptor_owned_once_of_reuse :
    ∃ calls s, Run (ServerOp.exec (β := ℕ)) Serving (Server.init [0, 1, 2]) calls s ∧
      DescriptorsOwned calls s ∧ calls.flatMap acceptedBy = [5, 6, 7, 5] ∧
      calls.flatMap closedBy = [5] ∧ s.holds = [7, 6, 5] := by
  have hrun : Run (ServerOp.exec (β := ℕ)) Serving (Server.init [0, 1, 2]) _ _ :=
    run_replay [.setThreadNum 2, .start, .accept 5, .accept 6, .onLoop (.thread 0) .swapFunctors,
      .onLoop (.thread 0) (.runFunctor (.ok 0) (.ok 0)), .accept 7,
      .onLoop (.thread 0) (.handleEvent 0 .closeCallback), .accept 5] (by decide +kernel)
  exact ⟨_, _, hrun, each_descriptor_owned_once hrun, by decide +kernel, by decide +kernel,
    by decide +kernel⟩

end Cannet.Net
