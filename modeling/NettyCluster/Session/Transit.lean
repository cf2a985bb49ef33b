import NettyCluster.Session.Arrival

/-
  Data on its way through the cluster.

  When only one session is its receiver's, data is in one
  place at a time: on a node that handles it, in flight to
  another node, or written to the channel. However the steps
  are interleaved, whatever was read is still on its way, or
  was written once.

  Main declarations:
    * `Traffic.Alone`, `Traffic.Event.Conveys`
    * `Place.transit`, `Place.transit_next`
    * `Traffic.delivered_once`
-/

------------------------------------------------------------
-- What Is on Its Way
------------------------------------------------------------

namespace NettyCluster

open MessageInfo

variable {ι : Type}

/- A write that went to a channel or to a peer, once. -/
structure Written.Arrives (w : Written ι) : Prop where
  thrown : w.thrown = none
  once :
    (w.effects.filterMap Effect.toClient).length +
      (w.effects.filterMap Effect.copy).length = 1

instance (w : Written ι) : Decidable w.Arrives :=
  decidable_of_iff
    (w.thrown = none ∧
      (w.effects.filterMap Effect.toClient).length +
        (w.effects.filterMap Effect.copy).length = 1)
    ⟨fun h => ⟨h.1, h.2⟩, fun h => ⟨h.thrown, h.once⟩⟩

namespace Traffic

/- Nobody else has asked to log in as the user. -/
def Alone
    (st : Traffic ι)
    (p : Place ι) : Prop :=
  ∀ k, p.user ∈ (st.clients k).online → k = p.channel

/-
  What may happen while data for the user is to get through:
  what spares the session, no login of the user elsewhere,
  no packet with its data that is lost, and no failure in
  handling its data on any node.
-/
def Event.Conveys
    (p : Place ι)
    (st : Traffic ι)
    (e : Event ι) : Prop :=
  e.Spares p st ∧
    match e with
    | .online k from_ _ => k ≠ p.channel → from_ ≠ p.user
    | .lose n =>
        ∀ packet, st.inFlight[n]? = some packet →
          packet.pkg.to_ ≠ p.user
    | .handle n ok writable =>
        ∀ h, st.handlings[n]? = some h →
          h.msg.to_ = p.user →
            ok = true ∧
              ∀ session rest,
                h.pc = .writing (session :: rest) →
                  ((session.onChannel writable).writeAndFlush
                    (st.cluster.nodes h.node)
                    h.msg).Arrives
    | _ => True

variable [DecidableEq ι]

/- Something happens, and data for the user gets through. -/
def ConveyingStep
    (clock : Int → String)
    (p : Place ι)
    (st st' : Traffic ι) : Prop :=
  ∃ e, st.Allowed e ∧ e.Conveys p st ∧
    st' = st.next clock e

end Traffic

/- How many handles a lookup has found or will find. -/
def LookupPc.left : LookupPc → Nat
| .called => 1
| .listed rest sessions => rest.length + sessions.length
| .absent _ rest sessions =>
    1 + rest.length + sessions.length
| .returned sessions => (sessions.getD []).length

/- How many writes are left. -/
def HandlingPc.left : HandlingPc → Nat
| .looking pc => pc.left
| .writing rest => rest.length

def Handling.left
    (msg : Model)
    (h : Handling ι) : Nat :=
  if h.msg = msg then h.pc.left else 0

/-
  The account of a message in the cluster: how often it was
  written to the channel, on how many ways it is, and how
  often it was read from a client.
-/
def Place.transit
    (p : Place ι)
    (msg : Model) : Account (Traffic ι) where
  done st := st.written.count (p.channel, msg)
  due st :=
    Account.total (Handling.left msg) st.handlings +
      st.inFlight.countP fun packet => packet.pkg = msg
  begun st := st.received.count msg

end NettyCluster

------------------------------------------------------------
-- Who Is Alone Stays Alone
------------------------------------------------------------

namespace NettyCluster

open MessageInfo

variable {ι : Type}
variable {p : Place ι}

namespace Traffic

variable [DecidableEq ι]
variable {st : Traffic ι}

theorem Alone.next
    (clock : Int → String)
    (hAlone : st.Alone p)
    {e : Event ι}
    (hConveys : e.Conveys p st) :
    (st.next clock e).Alone p := by
  have hInner :
      e.IsInner → (st.next clock e).Alone p := by
    intro hIs k hMem
    have hSame :=
      congrFun (congrFun (congrArg Ledger.online
        (ledger_next st clock hIs)) k) p.user
    exact hAlone k (iff_of_eq hSame |>.mp hMem)
  cases e with
  | online k from_ sid =>
      intro k' hMem
      simp only [Traffic.next, Traffic.online, setClient,
        Function.update_apply] at hMem
      split_ifs at hMem with hSame
      · subst hSame
        rcases List.mem_cons.mp hMem with hNew | hOld
        · by_contra hOther
          exact hConveys.2 hOther hNew.symm
        · exact hAlone k' hOld
      · exact hAlone k' hMem
  | data k msg => exact hAlone
  | _ => exact hInner trivial

omit [DecidableEq ι] in
/- The user's record lists the session, and only it. -/
theorem InPlace.length_records
    (hInv : st.Inv)
    (hPlace : st.InPlace p)
    (hAlone : st.Alone p) :
    ∃ u,
      UserCacheImpl.get st.cluster.redis (some p.user) =
          some u ∧
        u.map.length = 1 := by
  rcases hPlace.recorded with ⟨u, hStored, hMem⟩
  refine ⟨u, hStored, ?_⟩
  have hOnly : ∀ sid ∈ sids u.map, sid = p.sid := by
    intro sid hSid
    rcases List.mem_map.mp hSid with ⟨r, hRecord, rfl⟩
    rcases hInv.holds.redis _ u hStored r hRecord with
      ⟨k, hCreated, hOnline⟩
    rw [st.cluster.redis.users_key _ u hStored] at hOnline
    rw [hAlone k hOnline] at hCreated
    change r.sessionid ∈
      (st.clients p.channel).created at hCreated
    rw [hPlace.created, List.mem_singleton] at hCreated
    exact hCreated
  have hCount :=
    List.count_eq_one_of_mem u.nodup hMem
  rw [List.count_eq_length.mpr
    fun sid hSid => (hOnly sid hSid).symm] at hCount
  rw [← hCount, sids, List.length_map]

end Traffic

end NettyCluster

------------------------------------------------------------
-- Nothing Is Lost or Doubled
------------------------------------------------------------

namespace NettyCluster

open MessageInfo

variable {ι : Type}
variable {p : Place ι}

/- A lookup of one session finds one handle. -/
theorem LookupPc.left_step
    {userid : Option String}
    (site : Site ι)
    {u : UserCache}
    (hGet : UserCacheImpl.get site.redis userid = some u)
    (hOne : u.map.length = 1)
    (pc : LookupPc) :
    (LookupPc.step userid site pc).2.left = pc.left := by
  cases pc with
  | called =>
      have hNonempty : u.map.isEmpty = false := by
        rw [List.isEmpty_eq_false_iff]
        rintro hNil
        simp [hNil] at hOne
      simp [LookupPc.step, hGet, hNonempty, LookupPc.left,
        hOne]
  | listed rest sessions =>
      cases rest with
      | nil => simp [LookupPc.step, LookupPc.left]
      | cons r rest =>
          simp only [LookupPc.step]
          split
          case h_1 =>
            simp only [LookupPc.left, List.length_cons,
              List.length_append, List.length_nil]
            omega
          case h_2 =>
            simp only [LookupPc.left, List.length_cons]
            omega
  | absent r rest sessions =>
      simp only [LookupPc.step, LookupPc.left,
        List.length_append, List.length_cons,
        List.length_nil]
      omega
  | returned sessions => rfl

namespace Place

variable {msg : Model}
variable {st : Traffic ι}

/- One handling goes on: what it writes is no longer left. -/
theorem transit_set
    {st' : Traffic ι}
    {n : Nat}
    {h : Handling ι}
    (hGet : st.handlings[n]? = some h)
    {pc : HandlingPc}
    (writes : List (Nat × Model))
    (packets : List (Packet ι))
    (hHandlings :
      st'.handlings = st.handlings.set n { h with pc := pc })
    (hWritten : st'.written = st.written ++ writes)
    (hFlight : st'.inFlight = st.inFlight ++ packets)
    (hReceived : st'.received = st.received)
    (hLeft :
      Handling.left msg { h with pc := pc } +
          writes.count (p.channel, msg) +
          packets.countP (fun packet => packet.pkg = msg) =
        Handling.left msg h) :
    (p.transit msg).Balances st st' := by
  have hTotal :=
    Account.total_set (Handling.left msg) hGet
      { h with pc := pc }
  simp only [Account.Balances, transit, hHandlings, hWritten,
    hFlight, hReceived, List.count_append,
    List.countP_append]
  omega

theorem transit_same
    {st' : Traffic ι}
    (hHandlings : st'.handlings = st.handlings)
    (hWritten : st'.written = st.written)
    (hFlight : st'.inFlight = st.inFlight)
    (hReceived : st'.received = st.received) :
    (p.transit msg).Balances st st' := by
  simp only [Account.Balances, transit, hHandlings, hWritten,
    hFlight, hReceived]

/- Data that a client sent is on its way. -/
theorem transit_data
    (st : Traffic ι)
    (k : Nat)
    (msg' : Model) :
    (p.transit msg).Balances st (st.data k msg') := by
  have hNew :
      Handling.left msg
          (.new (st.clients k).home msg') =
        if msg' = msg then 1 else 0 :=
    rfl
  simp only [Account.Balances, transit, Traffic.data,
    Account.total_append, Account.total_singleton, hNew,
    List.count_cons, beq_iff_eq]
  omega

/- Data that arrives is handled instead of in flight. -/
theorem transit_arrive
    (st : Traffic ι)
    (n : Nat) :
    (p.transit msg).Balances st (st.arrive n) := by
  unfold Traffic.arrive
  split
  case h_1 => exact .refl _ st
  case h_2 packet hGet =>
    have hNew :
        Handling.left msg (.new packet.node packet.pkg) =
          if packet.pkg = msg then 1 else 0 :=
      rfl
    have hGone :=
      Account.countP_eraseIdx
        (fun packet : Packet ι => packet.pkg = msg) hGet
    simp only [decide_eq_true_eq] at hGone
    simp only [Account.Balances, transit,
      Account.total_append, Account.total_singleton, hNew]
    omega

/- Only other data gets lost. -/
theorem transit_lose
    (st : Traffic ι)
    (n : Nat)
    (hOther :
      ∀ packet, st.inFlight[n]? = some packet →
        packet.pkg ≠ msg) :
    (p.transit msg).Balances st (st.lose n) := by
  cases hGet : st.inFlight[n]? with
  | none =>
      have hId : st.inFlight.eraseIdx n = st.inFlight :=
        List.eraseIdx_of_length_le
          (List.getElem?_eq_none_iff.mp hGet)
      exact transit_same rfl rfl hId rfl
  | some packet =>
      have hGone :=
        Account.countP_eraseIdx
          (fun packet : Packet ι => packet.pkg = msg) hGet
      have hNot := hOther packet hGet
      simp only [hNot, decide_false, Bool.false_eq_true,
        if_false, Nat.add_zero] at hGone
      simp only [Account.Balances, transit, Traffic.lose,
        hGone]

/- A write for the user goes to its channel or in flight. -/
theorem transit_written
    (hInv : st.Inv)
    (hAlone : st.Alone p)
    {h : Handling ι}
    (hMem : h ∈ st.handlings)
    {session : ServerSession}
    {rest : List ServerSession}
    (hPc : h.pc = .writing (session :: rest))
    (hTo : h.msg.to_ = p.user)
    (writable : Bool)
    {written : Written ι}
    (hWritten :
      written =
        (session.onChannel writable).writeAndFlush
          (st.cluster.nodes h.node) h.msg)
    (hArrives : written.Arrives) :
    (written.effects.filterMap Effect.toClient).count
          (p.channel, h.msg) +
        (written.effects.filterMap Effect.copy).countP
          (fun packet => packet.pkg = h.msg) = 1 := by
  have hFor := (hInv.holds.handlings h hMem).pc
  rw [hPc] at hFor
  have hEffects :=
    ServerSession.writeAndFlush_for
      (hFor session List.mem_cons_self) writable
      (st.cluster.nodes h.node) h.msg
  rw [← hWritten] at hEffects
  have hWrites :
      ∀ w ∈ written.effects.filterMap Effect.toClient,
        (p.channel, h.msg) = w := by
    intro w hW
    rcases List.mem_filterMap.mp hW with ⟨effect, hIn, hOne⟩
    rcases (hEffects effect hIn).1 w hOne with
      ⟨hOnline, hMsg⟩
    rw [hTo] at hOnline
    rw [← hMsg, ← hAlone w.1 hOnline]
  have hPackets :
      ∀ packet ∈ written.effects.filterMap Effect.copy,
        decide (packet.pkg = h.msg) = true := by
    intro packet hPacket
    rcases List.mem_filterMap.mp hPacket with
      ⟨effect, hIn, hOne⟩
    simpa using (hEffects effect hIn).2 packet hOne
  rw [List.count_eq_length.mpr hWrites,
    List.countP_eq_length.mpr hPackets]
  exact hArrives.once

/- Writes of other data do not count. -/
theorem transit_unwritten
    (session : ServerSession)
    (writable : Bool)
    (node : Node ι)
    {msg' : Model}
    (hOther : msg' ≠ msg) :
    ((((session.onChannel writable).writeAndFlush node
          msg').effects.filterMap Effect.toClient).count
            (p.channel, msg) = 0) ∧
      (((session.onChannel writable).writeAndFlush node
          msg').effects.filterMap Effect.copy).countP
            (fun packet => packet.pkg = msg) = 0 := by
  refine ⟨ServerSession.count_written _ _ _ _ _
    (.inr hOther), ?_⟩
  rw [List.countP_eq_zero]
  intro packet hPacket
  rcases List.mem_filterMap.mp hPacket with
    ⟨effect, hIn, hOne⟩
  -- a ledger in which every handle is for everybody
  have hPkg :=
    (@ServerSession.writeAndFlush_for _
      ⟨fun _ _ => True, fun _ _ => True, fun _ => packet.node,
        fun _ => True⟩
      "" session (by cases session <;> trivial) writable node
      msg' effect hIn).2 packet hOne
  rw [hPkg]
  simpa using hOther

variable [DecidableEq ι]

theorem transit_handle
    (hInv : st.Inv)
    (hPlace : st.InPlace p)
    (hAlone : st.Alone p)
    (hTo : msg.to_ = p.user)
    {n : Nat}
    {ok writable : Bool}
    (hConveys :
      Traffic.Event.Conveys p st (.handle n ok writable)) :
    (p.transit msg).Balances st
      (st.handle n ok writable) := by
  rcases st.handle_cases n ok writable with
    hId | ⟨h, hGet, hCase⟩
  · rw [hId]
    exact .refl _ st
  · have hMem := List.mem_of_getElem? hGet
    have hFine := hConveys.2 h hGet
    rcases hCase with
      ⟨sessions, hPc, hNext⟩ | ⟨pc, hPc, hOk, hNext⟩ |
        ⟨pc, hPc, _, hNext⟩ |
        ⟨session, rest, written, hPc, hWritten, hNext⟩
    all_goals rw [hNext]
    · refine transit_set hGet [] [] rfl
        (List.append_nil _).symm (List.append_nil _).symm
        rfl ?_
      simp [Handling.left, hPc, HandlingPc.left,
        LookupPc.left]
    · refine transit_set hGet [] [] rfl
        (List.append_nil _).symm (List.append_nil _).symm
        rfl ?_
      by_cases hMsg : h.msg = msg
      · have hSound := (hFine (by rw [hMsg, hTo])).1
        rw [hOk] at hSound
        cases hSound
      · simp [Handling.left, hMsg]
    · refine transit_set hGet [] [] rfl
        (List.append_nil _).symm (List.append_nil _).symm
        rfl ?_
      by_cases hMsg : h.msg = msg
      · rcases hPlace.length_records hInv hAlone with
          ⟨u, hRecord, hOne⟩
        rw [← hTo, ← hMsg] at hRecord
        have hStep :=
          LookupPc.left_step (st.cluster.site h.node) hRecord
            hOne pc
        simp [Handling.left, hMsg, hPc, HandlingPc.left,
          ← hStep]
      · simp [Handling.left, hMsg]
    · refine transit_set hGet
        (written.effects.filterMap Effect.toClient)
        (written.effects.filterMap Effect.copy) rfl rfl rfl
        rfl ?_
      by_cases hMsg : h.msg = msg
      · have hUser : h.msg.to_ = p.user := by
          rw [hMsg, hTo]
        have hArrives := (hFine hUser).2 session rest hPc
        rw [← hWritten] at hArrives
        have hOnce :=
          transit_written hInv hAlone hMem hPc hUser writable
            hWritten hArrives
        rw [hMsg] at hOnce
        simp only [Handling.left, hMsg, if_true, hPc,
          HandlingPc.left, hArrives.thrown,
          Option.isSome_none, Bool.false_eq_true, if_false,
          List.length_cons]
        omega
      · rw [hWritten]
        rcases @transit_unwritten _ p msg session writable
          (st.cluster.nodes h.node) h.msg hMsg with
          ⟨hNone, hNoPacket⟩
        rw [hNone, hNoPacket]
        simp [Handling.left, hMsg]

/- Everything that conveys its user's data does so. -/
theorem transit_next
    (clock : Int → String)
    (hInv : st.Inv)
    (hPlace : st.InPlace p)
    (hAlone : st.Alone p)
    (hTo : msg.to_ = p.user)
    {e : Traffic.Event ι}
    (hConveys : e.Conveys p st) :
    (p.transit msg).Balances st (st.next clock e) := by
  cases e with
  | data k msg' => exact transit_data st k msg'
  | arrive n => exact transit_arrive st n
  | lose n =>
      refine transit_lose st n fun packet hGet hSame => ?_
      apply hConveys.2 packet hGet
      rw [hSame, hTo]
  | handle n ok writable =>
      exact transit_handle hInv hPlace hAlone hTo hConveys
  | task k n ok =>
      simp only [Traffic.next, Traffic.task]
      split
      case h_1 => exact .refl _ st
      case h_2 =>
        split_ifs <;> exact transit_same rfl rfl rfl rfl
  | closing k n ok =>
      simp only [Traffic.next, Traffic.closing]
      split
      case h_1 => exact .refl _ st
      case h_2 =>
        split_ifs <;> exact transit_same rfl rfl rfl rfl
  | _ => exact transit_same rfl rfl rfl rfl

end Place

end NettyCluster

------------------------------------------------------------
-- Every Run
------------------------------------------------------------

namespace NettyCluster

open MessageInfo

variable {ι : Type}
variable [DecidableEq ι]
variable {p : Place ι}

namespace Traffic

variable {before st : Traffic ι}

/- A run that conveys the user's data accounts for it. -/
theorem transit_of_reach
    {clock : Int → String}
    (hReach : Transition.Reach Opened (Step clock) before)
    (hPlace : before.InPlace p)
    (hAlone : before.Alone p)
    (hRun :
      Transition.Reach (fun x => x = before)
        (ConveyingStep clock p) st)
    {msg : Model}
    (hTo : msg.to_ = p.user) :
    (st.InPlace p ∧ st.Alone p) ∧
      (p.transit msg).Balances before st := by
  have hAll :=
    Account.balances_of_reach (A := p.transit msg)
      (I := fun s =>
        Transition.Reach Opened (Step clock) s ∧
          s.InPlace p ∧ s.Alone p)
      (by
        rintro s _ ⟨hReached, hIn, hOnly⟩
          ⟨e, hAllowed, hConveys, rfl⟩
        exact ⟨hReached.step ⟨e, hAllowed, rfl⟩,
          hIn.next clock (inv_of_opened hReached)
            (tied_of_reach hReached) hAllowed hConveys.1,
          hOnly.next clock hConveys⟩)
      (by
        rintro s _ ⟨hReached, hIn, hOnly⟩
          ⟨e, hAllowed, hConveys, rfl⟩
        exact Place.transit_next clock
          (inv_of_opened hReached) hIn hOnly hTo hConveys)
      ⟨hReach, hPlace, hAlone⟩ hRun
  exact ⟨hAll.1.2, hAll.2⟩

/-
  When a session is in its place and its user is logged in
  nowhere else, every message to the user that any node
  reads from a client is written to the channel exactly
  once, unless it is still handled or in flight.
-/
theorem delivered_once
    {clock : Int → String}
    (hReach : Transition.Reach Opened (Step clock) before)
    (hPlace : before.InPlace p)
    (hAlone : before.Alone p)
    (hRun :
      Transition.Reach (fun x => x = before)
        (ConveyingStep clock p) st)
    {msg : Model}
    (hTo : msg.to_ = p.user) :
    st.written.count (p.channel, msg) +
        (Account.total (Handling.left msg) st.handlings +
          st.inFlight.countP fun packet =>
            packet.pkg = msg) +
        before.received.count msg =
      before.written.count (p.channel, msg) +
        (Account.total (Handling.left msg)
            before.handlings +
          before.inFlight.countP fun packet =>
            packet.pkg = msg) +
        st.received.count msg :=
  (transit_of_reach hReach hPlace hAlone hRun hTo).2

omit [DecidableEq ι] in
/- Data is handled as far as its writes arrive. -/
theorem conveys_handle
    {n : Nat}
    (hArrive :
      (st.handlings[n]?).all
        (fun h => h.pc.handles.all fun session =>
          decide
            ((session.onChannel true).writeAndFlush
              (st.cluster.nodes h.node) h.msg).Arrives) =
          true) :
    Event.Conveys p st (.handle n true true) := by
  have hFine :
      ∀ h, st.handlings[n]? = some h →
        ∀ session rest, h.pc = .writing (session :: rest) →
          ((session.onChannel true).writeAndFlush
            (st.cluster.nodes h.node) h.msg).Arrives := by
    intro h hGet session rest hPc
    rw [hGet, Option.all_some, hPc] at hArrive
    exact of_decide_eq_true
      (List.all_eq_true.mp hArrive session
        List.mem_cons_self)
  refine ⟨fun h hGet _ _ => ⟨rfl, rfl, ?_⟩,
    fun h hGet _ => ⟨rfl, hFine h hGet⟩⟩
  exact fun session rest hPc =>
    (hFine h hGet session rest hPc).thrown

------------------------------------------------------------
-- A Run
------------------------------------------------------------

theorem alone_placed : placed.Alone firstPlace := by
  intro k hMem
  by_contra hOther
  rw [clients_placed hOther] at hMem
  cases hMem

/- Data is read and handled at the other node first. -/
def sending (n : Nat) : Traffic Bool :=
  (fun st => st.handle 0 true true)^[n]
    (placed.data 1 toFirst)

/- Then it arrives, and is handled at the node. -/
def receiving (n : Nat) : Traffic Bool :=
  (fun st => st.handle 1 true true)^[n]
    ((sending 6).next (fun _ => "0") (.arrive 0))

theorem reach_receiving :
    Transition.Reach (fun x => x = placed)
      (ConveyingStep (fun _ => "0") firstPlace)
      (receiving 5) := by
  have hRead :
      Transition.Reach (fun x => x = placed)
        (ConveyingStep (fun _ => "0") firstPlace)
        (sending 0) :=
    .step (.init rfl)
      ⟨.data 1 toFirst, rfl, ⟨trivial, trivial⟩, rfl⟩
  have hSend :
      ∀ n < 6,
        ConveyingStep (fun _ => "0") firstPlace (sending n)
          (sending (n + 1)) := by
    intro n hLess
    refine ⟨.handle 0 true true, trivial, conveys_handle ?_,
      Function.iterate_succ_apply' _ _ _⟩
    revert n
    decide +kernel
  have hSent :=
    (((((hRead.step (hSend 0 (by decide))).step
      (hSend 1 (by decide))).step (hSend 2 (by decide))).step
        (hSend 3 (by decide))).step
          (hSend 4 (by decide))).step (hSend 5 (by decide))
  have hArrived :
      Transition.Reach (fun x => x = placed)
        (ConveyingStep (fun _ => "0") firstPlace)
        (receiving 0) :=
    hSent.step ⟨.arrive 0, trivial, ⟨trivial, trivial⟩,
      Function.iterate_zero_apply _ _⟩
  have hReceive :
      ∀ n < 5,
        ConveyingStep (fun _ => "0") firstPlace
          (receiving n) (receiving (n + 1)) := by
    intro n hLess
    refine ⟨.handle 1 true true, trivial, conveys_handle ?_,
      Function.iterate_succ_apply' _ _ _⟩
    revert n
    decide +kernel
  exact ((((hArrived.step (hReceive 0 (by decide))).step
    (hReceive 1 (by decide))).step
      (hReceive 2 (by decide))).step
        (hReceive 3 (by decide))).step
          (hReceive 4 (by decide))

/- The channel gets it, once. -/
theorem delivered_once_receiving :
    (receiving 5).written.count
      (firstPlace.channel, toFirst) = 1 := by
  have hDelivered :=
    @delivered_once _ _ _ _ _ _ reach_placed inPlace_placed
      alone_placed reach_receiving toFirst rfl
  have hBefore :
      placed.written.count
            (firstPlace.channel, toFirst) = 0 ∧
        placed.handlings.length = 0 ∧
          placed.inFlight.length = 0 ∧
            placed.received.length = 0 := by
    decide +kernel
  have hAfter :
      Account.total (Handling.left toFirst)
            (receiving 5).handlings = 0 ∧
        (receiving 5).inFlight.length = 0 ∧
          (receiving 5).received.count toFirst = 1 := by
    decide +kernel
  revert hDelivered hBefore hAfter
  -- the states themselves need not be computed again
  generalize receiving 5 = after
  generalize placed = before
  rintro hDelivered ⟨hWritten, hNone, hSent, hRead⟩
    ⟨hLeft, hGone, hOnce⟩
  rw [hWritten, List.length_eq_zero_iff.mp hNone,
    List.length_eq_zero_iff.mp hSent,
    List.length_eq_zero_iff.mp hRead, hLeft,
    List.length_eq_zero_iff.mp hGone, hOnce] at hDelivered
  simpa [Account.total] using hDelivered

end Traffic

end NettyCluster
