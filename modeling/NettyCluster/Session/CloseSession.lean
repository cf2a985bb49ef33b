import NettyCluster.Session.Delivery
import NettyCluster.Session.PartialLogin
import NettyCluster.Session.StoreAgreement

/-
  Closing a channel, and closing it once more.

  A channel is closed when a login on it failed and when it
  goes away, whether a session was bound to it or not. In
  between anything may happen in the cluster: other channels
  log in or fail to, and peers come and go.

  Main declarations:
    * `NodeRouter.silent_sendNotification_iff`
    * `CloseStep`, `BoundInv`
    * `ClosesOnce`
    * `closesOnce_iff`
-/

------------------------------------------------------------
-- Notices That Are Not Sent
------------------------------------------------------------

namespace NettyCluster

open MessageInfo

variable {ι : Type}

/- Nothing is thrown, and no peer is sent anything. -/
structure Written.Silent (w : Written ι) : Prop where
  noThrow : w.thrown = none
  noSend :
    ∀ sender pkg, .send sender pkg ∈ w.effects →
      sender.reaches = none

namespace Written

theorem silent_andThen_iff (w next : Written ι) :
    (w.andThen next).Silent ↔ w.Silent ∧ next.Silent := by
  unfold andThen
  cases hThrown : w.thrown with
  | some t =>
      constructor
      · intro hSilent
        exact absurd hSilent.noThrow (by simp [hThrown])
      · rintro ⟨hSilent, -⟩
        exact absurd hSilent.noThrow (by simp [hThrown])
  | none =>
      constructor
      · intro hSilent
        exact
          ⟨⟨hThrown, fun sender pkg hMem =>
              hSilent.noSend sender pkg
                (List.mem_append_left _ hMem)⟩,
            hSilent.noThrow, fun sender pkg hMem =>
              hSilent.noSend sender pkg
                (List.mem_append_right _ hMem)⟩
      · rintro ⟨hFirst, hNext⟩
        refine ⟨hNext.noThrow, fun sender pkg hMem => ?_⟩
        rcases List.mem_append.mp hMem with hMem | hMem
        · exact hFirst.noSend sender pkg hMem
        · exact hNext.noSend sender pkg hMem

theorem thrown_andThen_iff (w next : Written ι) :
    (w.andThen next).thrown = none ↔
      w.thrown = none ∧ next.thrown = none := by
  unfold andThen
  cases hThrown : w.thrown <;> simp [hThrown]

theorem silent_nothing : ({} : Written ι).Silent :=
  ⟨rfl, fun _ _ hMem => by cases hMem⟩

end Written

section ForEach

variable {α : Type}
variable (write : α → Written ι)
variable (xs : List α)

/- A loop is silent when each of its rounds is. -/
theorem silent_forEach_iff :
    (forEach write xs).Silent ↔
      ∀ x ∈ xs, (write x).Silent := by
  induction xs with
  | nil => simp [forEach, Written.silent_nothing]
  | cons x xs ih =>
      rw [forEach, Written.silent_andThen_iff, ih,
        List.forall_mem_cons]

/- A loop throws nothing when none of its rounds does. -/
theorem thrown_forEach_iff :
    (forEach write xs).thrown = none ↔
      ∀ x ∈ xs, (write x).thrown = none := by
  induction xs with
  | nil => simp [forEach]
  | cons x xs ih =>
      rw [forEach, Written.thrown_andThen_iff, ih,
        List.forall_mem_cons]

end ForEach

namespace PeerSender

/- A call of a sender is silent when it is not connected. -/
theorem silent_writeAndFlush_iff
    (sender : PeerSender ι)
    (pkg : Model) :
    (sender.writeAndFlush pkg).Silent ↔
      sender.connectFlag = false := by
  constructor
  · intro hSilent
    rcases sender with ⟨wsNode, _ | _, _ | channel⟩
    · rfl
    · rfl
    · cases hSilent.noThrow
    · cases hSilent.noSend _ pkg List.mem_cons_self
  · intro hFlag
    have hNone : sender.reaches = none := by
      simp [reaches, hFlag]
    rw [writeAndFlush, if_pos hFlag]
    refine ⟨rfl, fun sender' pkg' hMem => ?_⟩
    cases List.mem_singleton.mp hMem
    exact hNone

end PeerSender

namespace Node

/- The senders to other nodes have a property. -/
def PeersAll
    (node : Node ι)
    (P : PeerSender ι → Prop) : Prop :=
  ∀ key sender, node.workerMap.lookup key = some sender →
    key ≠ node.wsNode.id → P sender

end Node

namespace NodeRouter

variable (node : Node ι)
variable (content : String)
variable (clock : Int → String)

/- A notification calls each sender to another node. -/
theorem forall_round_iff
    {Q : Written ι → Prop}
    {P : PeerSender ι → Prop}
    (hNothing : Q {})
    (hWrite :
      ∀ sender pkg, Q (sender.writeAndFlush pkg) ↔ P sender) :
    (∀ key ∈ node.workerMap.keys,
      Q (if key = node.wsNode.id then {}
        else
          match node.workerMap.lookup key with
          | none => ⟨[], some .nullPointer⟩
          | some peerSender =>
              peerSender.writeAndFlush
                (NotificationMsgBuilder.buildNotification
                  content (clock key)))) ↔
      node.PeersAll P := by
  constructor
  · intro hAll key sender hLookup hOther
    have hMem : key ∈ node.workerMap.keys :=
      AList.mem_keys.mpr
        (AList.lookup_isSome.mp (by rw [hLookup]; rfl))
    have hRound := hAll key hMem
    rw [if_neg hOther, hLookup] at hRound
    exact (hWrite sender _).mp hRound
  · intro hAll key hMem
    split_ifs with hOwn
    · exact hNothing
    · rcases Option.isSome_iff_exists.mp
        (AList.lookup_isSome.mpr (AList.mem_keys.mp hMem))
        with ⟨sender, hLookup⟩
      rw [hLookup]
      exact (hWrite sender _).mpr
        (hAll key sender hLookup hOwn)

/- It is silent when no peer is connected. -/
theorem silent_sendNotification_iff :
    (sendNotification node content clock).Silent ↔
      node.PeersAll fun sender =>
        sender.connectFlag = false := by
  rw [sendNotification, silent_forEach_iff]
  exact forall_round_iff node content clock
    Written.silent_nothing
    PeerSender.silent_writeAndFlush_iff

/- It throws nothing when no sender is half connected. -/
theorem thrown_sendNotification_iff :
    (sendNotification node content clock).thrown = none ↔
      node.PeersAll fun sender => sender.broken = false := by
  rw [sendNotification, thrown_forEach_iff]
  apply forall_round_iff node content clock
    (Q := fun w => w.thrown = none) rfl
  intro sender pkg
  rw [PeerSender.writeAndFlush_eq]
  cases sender.broken <;> simp

end NodeRouter

end NettyCluster

------------------------------------------------------------
-- Runs with Failing Logins
------------------------------------------------------------

namespace NettyCluster

variable {ι : Type}

/-
  Complete operations, one at a time, of which a login may
  stop at any of its steps. Peers come and go.
-/
inductive CloseStep
    [DecidableEq ι] : Serial ι → Serial ι → Prop where
| login {st i s} (fault : AddStep → Option Throwable) :
    (∀ p ∈ st.added, p.2.sessionId ≠ s.sessionId) →
    s.userid ≠ none →
    CloseStep st
      ⟨st.cluster.setSite i
          (SessionManager.addUntil fault
            (st.cluster.site i) s).1,
        (i, s) :: st.added, st.closings⟩
| close {st i s} (clock : Int → String) :
    (i, s) ∈ st.added →
    CloseStep st
      ⟨st.cluster.close i s clock, st.added,
        (i, s) :: st.closings⟩
| lookup {st} (i : ι) (u : String) :
    CloseStep st
      ⟨st.cluster.lookup i u, st.added, st.closings⟩
| peers {st} (i : ι)
    (workerMap : AList fun _ : Int => PeerSender ι) :
    CloseStep st
      ⟨st.cluster.setSite i
          ⟨{ st.cluster.nodes i with workerMap := workerMap },
            st.cluster.redis⟩,
        st.added, st.closings⟩

/- A login of which no step throws is a complete one. -/
theorem CloseStep.of_serial
    [DecidableEq ι]
    {st st' : Serial ι}
    (hStep : SerialStep st st') :
    CloseStep st st' := by
  cases hStep with
  | add clock hFresh hUser =>
      exact .login (fun _ => none) hFresh hUser
  | close clock hMem => exact .close clock hMem
  | lookup i u => exact .lookup i u

/-
  The invariant of these runs. Recorded sessions are open
  for the user they are recorded for, and no record is of a
  session that was never bound.
-/
structure BoundInv (st : Serial ι) : Prop extends
    EntryInv st.cluster st.added where
  record_open :
    ∀ uid r,
      r ∈ UserCacheImpl.records st.cluster.redis uid →
        ∃ i s, st.cluster.Open i s ∧
          s.sessionId = r.sessionid ∧
          userKey s.userid = userKey uid
  session_seen :
    ∀ sid r,
      SessionCacheImpl.get st.cluster.redis sid = some r →
        ∃ p ∈ st.added, p.2.sessionId = sid

namespace BoundInv

variable {st : Serial ι}

theorem start
    (hStart : SerialStart st) :
    BoundInv st := by
  have hInv := SerialInv.start hStart
  exact
    { hInv.toEntryInv with
      record_open := by
        simp [hStart.2.2.1, UserCacheImpl.records,
          UserCacheImpl.get, Redis.empty]
      session_seen := by
        simp [hStart.2.2.1, SessionCacheImpl.get,
          Redis.empty] }

/- Nothing is known of a session id never seen. -/
theorem fresh
    (hInv : BoundInv st)
    {s : LocalSession}
    (hFresh : ∀ p ∈ st.added, p.2.sessionId ≠ s.sessionId)
    (i : ι) :
    SessionManager.Fresh (st.cluster.site i)
      s.sessionId where
  entry := hInv.entry_fresh hFresh i
  session := by
    cases hSession :
        SessionCacheImpl.get (st.cluster.site i).redis
          s.sessionId with
    | none => rfl
    | some r =>
        rcases hInv.session_seen _ r hSession with
          ⟨p, hMem, hSid⟩
        exact absurd hSid (hFresh p hMem)
  recorded uid r hMem hSid := by
    rcases hInv.record_open uid r hMem with
      ⟨j, t, hOpen, hSame, -⟩
    exact hFresh _ (hInv.open_added hOpen)
      (hSame.trans hSid)

/- A session is bound, and nothing else done. -/
theorem bind
    (hInv : BoundInv st)
    (i : ι)
    {s : LocalSession}
    (hFresh : ∀ p ∈ st.added, p.2.sessionId ≠ s.sessionId) :
    BoundInv
      ⟨st.cluster, (i, s) :: st.added, st.closings⟩ where
  unique := hInv.unique_cons hFresh
  entry_local j sid t hEntry := by
    rcases hInv.entry_local j sid t hEntry with ⟨hSid, hMem⟩
    exact ⟨hSid, List.mem_cons_of_mem _ hMem⟩
  entry_remote j sid r hEntry := by
    rcases hInv.entry_remote j sid r hEntry with
      ⟨k, t, hMem, hRest⟩
    exact ⟨k, t, List.mem_cons_of_mem _ hMem, hRest⟩
  record_open := hInv.record_open
  session_seen sid r hSession := by
    rcases hInv.session_seen sid r hSession with
      ⟨p, hMem, hSid⟩
    exact ⟨p, List.mem_cons_of_mem _ hMem, hSid⟩

variable [DecidableEq ι]

/- A login got as far as the handle, and maybe further. -/
theorem partialLogin
    (hInv : BoundInv st)
    {i : ι}
    {s : LocalSession}
    {site : Site ι}
    (hFresh : ∀ p ∈ st.added, p.2.sessionId ≠ s.sessionId)
    (hPartial :
      SessionManager.Partial (st.cluster.site i) s site) :
    BoundInv
      ⟨st.cluster.setSite i site, (i, s) :: st.added,
        st.closings⟩ := by
  have hOpen :=
    Cluster.put_open hPartial.sessionMap
      (hInv.entry_fresh hFresh)
  constructor
  case toEntryInv =>
    exact EntryInv.put hPartial.sessionMap hInv.toEntryInv
      hFresh
  case record_open =>
    intro uid r hMem
    by_cases hOwn :
        userKey uid = userKey s.userid ∧
          r.sessionid = s.sessionId
    · exact ⟨i, s, (hOpen i s).mpr (.inl ⟨rfl, rfl⟩),
        hOwn.2.symm, hOwn.1.symm⟩
    · have hOld :=
        (hPartial.recorded uid r).mp ⟨hMem, fun hKey hSid =>
          hOwn ⟨hKey, hSid⟩⟩
      rcases hInv.record_open uid r hOld with
        ⟨j, t, hOpenT, hRest⟩
      exact ⟨j, t, (hOpen j t).mpr (.inr hOpenT), hRest⟩
  case session_seen =>
    intro sid r hSession
    by_cases hSid : sid = s.sessionId
    · exact ⟨(i, s), List.mem_cons_self, hSid.symm⟩
    · have hOld := hPartial.session sid hSid
      rw [Cluster.setSite_redis, hOld] at hSession
      rcases hInv.session_seen sid r hSession with
        ⟨p, hMem, hSame⟩
      exact ⟨p, List.mem_cons_of_mem _ hMem, hSame⟩

/- Wherever a login stops, the invariant is kept. -/
theorem login
    (hInv : BoundInv st)
    (i : ι)
    {s : LocalSession}
    (hFresh : ∀ p ∈ st.added, p.2.sessionId ≠ s.sessionId)
    (fault : AddStep → Option Throwable) :
    BoundInv
      ⟨st.cluster.setSite i
          (SessionManager.addUntil fault
            (st.cluster.site i) s).1,
        (i, s) :: st.added, st.closings⟩ := by
  cases hPut : fault .putLocal with
  | some t =>
      rw [SessionManager.addUntil, AddStep.all,
        Faulty.run_throws _ hPut, Cluster.setSite_site]
      exact hInv.bind i hFresh
  | none =>
      exact hInv.partialLogin hFresh
        (SessionManager.addUntil_before_count
          (hInv.fresh hFresh i) hPut)

/- Closing a session keeps the invariant. -/
theorem close
    (hInv : BoundInv st)
    {i : ι}
    {s : LocalSession}
    (clock : Int → String)
    (hMem : (i, s) ∈ st.added) :
    BoundInv
      ⟨st.cluster.close i s clock, st.added,
        (i, s) :: st.closings⟩ := by
  rcases hInv.entry_added hMem with hNone | hOpenS
  · rw [Cluster.close_none _ i s clock hNone]
    exact ⟨hInv.toEntryInv, hInv.record_open,
      hInv.session_seen⟩
  · have hOpen := hInv.close_open_iff clock hMem
    constructor
    case toEntryInv =>
      exact hInv.of_subset fun _ _ _ hEntry =>
        Cluster.entry_of_close clock hEntry
    case record_open =>
      intro uid r hMemR
      rw [Cluster.close_eq, Cluster.setSite_redis,
        SessionManager.mem_records_remove hOpenS.lookup]
        at hMemR
      rcases hInv.record_open uid r hMemR.1 with
        ⟨j, t, hOpenT, hSid, hKey⟩
      refine ⟨j, t, (hOpen j t).mpr ⟨hOpenT, ?_⟩, hSid, hKey⟩
      rintro ⟨rfl, rfl⟩
      exact hMemR.2 hKey.symm hSid.symm
    case session_seen =>
      intro sid r hSession
      rw [Cluster.close_getSession clock hOpenS] at hSession
      split_ifs at hSession
      exact hInv.session_seen sid r hSession

/- Looking up a user keeps the invariant. -/
theorem lookup
    (hInv : BoundInv st)
    (i : ι)
    (u : String) :
    BoundInv
      ⟨st.cluster.lookup i u, st.added, st.closings⟩ := by
  constructor
  case toEntryInv =>
    apply hInv.toEntryInv.lookup
    intro r hMem
    rcases hInv.record_open _ r hMem with
      ⟨j, t, hOpenT, hSid, -⟩
    exact ⟨j, t, hOpenT, hSid⟩
  case record_open =>
    intro uid r hMem
    rcases hInv.record_open uid r hMem with
      ⟨j, t, hOpenT, hRest⟩
    exact ⟨j, t, (st.cluster.lookup_open i u j t).mpr hOpenT,
      hRest⟩
  case session_seen => exact hInv.session_seen

/- Senders have nothing to do with sessions. -/
theorem peers
    (hInv : BoundInv st)
    (i : ι)
    (workerMap : AList fun _ : Int => PeerSender ι) :
    BoundInv
      ⟨st.cluster.setSite i
          ⟨{ st.cluster.nodes i with workerMap := workerMap },
            st.cluster.redis⟩,
        st.added, st.closings⟩ := by
  have hEntry :
      (st.cluster.setSite i
        ⟨{ st.cluster.nodes i with workerMap := workerMap },
          st.cluster.redis⟩).entry = st.cluster.entry := by
    funext j sid
    by_cases hNode : j = i
    · subst hNode
      exact Cluster.setSite_entry_self _ _ _ sid
    · exact Cluster.setSite_entry_ne _ _ _ hNode sid
  constructor
  case toEntryInv =>
    apply hInv.of_subset
    rw [hEntry]
    exact fun _ _ _ hThere => hThere
  case record_open =>
    simp only [Cluster.Open, hEntry]
    exact hInv.record_open
  case session_seen => exact hInv.session_seen

/- Every step keeps the invariant. -/
theorem step
    {st' : Serial ι}
    (hInv : BoundInv st)
    (hStep : CloseStep st st') :
    BoundInv st' := by
  cases hStep with
  | login fault hFresh _ => exact hInv.login _ hFresh fault
  | close clock hMem => exact hInv.close clock hMem
  | lookup i u => exact hInv.lookup i u
  | peers i workerMap => exact hInv.peers i workerMap

end BoundInv

end NettyCluster

------------------------------------------------------------
-- Closing Twice
------------------------------------------------------------

namespace NettyCluster

open SessionManager

variable {ι : Type}

namespace SessionManager

variable (site : Site ι)
variable (s : LocalSession)
variable (clock : Int → String)

/- Forgetting a session keeps the senders. -/
theorem remove_peersAll_iff
    (sid : String)
    (P : PeerSender ι → Prop) :
    (remove site sid).node.PeersAll P ↔
      site.node.PeersAll P := by
  unfold remove
  cases site.node.sessionMap.lookup sid <;> rfl

/- Closing a channel throws what its notice throws. -/
theorem thrown_closeSession_iff :
    (closeSession site (some s) clock).written.thrown =
        none ↔
      site.node.PeersAll fun sender =>
        sender.broken = false := by
  rw [closeSession, Written.thrown_andThen_iff,
    notifyOtherWsNodeOffLine,
    NodeRouter.thrown_sendNotification_iff,
    remove_peersAll_iff]
  exact and_iff_right rfl

/- It is silent when no peer is connected. -/
theorem silent_closeSession_iff :
    (closeSession site (some s) clock).written.Silent ↔
      site.node.PeersAll fun sender =>
        sender.connectFlag = false := by
  rw [closeSession, Written.silent_andThen_iff,
    notifyOtherWsNodeOffLine,
    NodeRouter.silent_sendNotification_iff,
    remove_peersAll_iff]
  refine and_iff_right ⟨rfl, fun sender pkg hMem => ?_⟩
  cases List.mem_singleton.mp hMem

end SessionManager

/-
  No call throws; without a session nothing happens; and the
  second call changes nothing and sends nothing to a peer.
-/
structure ClosesOnce
    (bound : Option LocalSession)
    (before : Site ι)
    (clock : Int → String)
    (later : Site ι)
    (clock' : Int → String) : Prop where
  noThrow :
    (closeSession before bound clock).written.thrown =
      none
  noThrow_again :
    (closeSession later bound clock').written.thrown =
      none
  noSession :
    bound = none →
      (closeSession before bound clock).site = before ∧
        (closeSession before bound clock).written.effects =
          []
  unchanged :
    (closeSession later bound clock').site = later
  noSend :
    ∀ sender pkg,
      .send sender pkg ∈
          (closeSession later bound clock').written.effects →
        sender.reaches = none

variable [DecidableEq ι]

/- The state after the channel was closed on a node. -/
def Serial.closed
    (st : Serial ι)
    (i : ι)
    (bound : Option LocalSession)
    (clock : Int → String) : Serial ι :=
  ⟨st.cluster.setSite i
      (closeSession (st.cluster.site i) bound clock).site,
    st.added,
    bound.elim st.closings fun s => (i, s) :: st.closings⟩

namespace BoundInv

variable {st st' : Serial ι}
variable {i : ι}
variable {s : LocalSession}

/- A login has nothing to do with other sessions. -/
theorem login_entry_ne
    (hInv : BoundInv st)
    (j : ι)
    {t : LocalSession}
    (hFresh : ∀ p ∈ st.added, p.2.sessionId ≠ t.sessionId)
    (fault : AddStep → Option Throwable)
    {sid : String}
    (hSid : sid ≠ t.sessionId) :
    (st.cluster.setSite j
      (addUntil fault (st.cluster.site j) t).1).entry i sid =
        st.cluster.entry i sid := by
  cases hPut : fault .putLocal with
  | some e =>
      rw [addUntil, AddStep.all, Faulty.run_throws _ hPut,
        Cluster.setSite_site]
  | none =>
      exact Cluster.put_entry_ne
        (addUntil_before_count (hInv.fresh hFresh j)
          hPut).sessionMap
        (.inr hSid)

/- A lookup makes no handle of a session that was closed. -/
theorem lookup_closed
    (hInv : BoundInv st)
    (hMem : (i, s) ∈ st.added)
    (hNone : st.cluster.entry i s.sessionId = none)
    (j : ι)
    (u : String) :
    (st.cluster.lookup j u).entry i s.sessionId = none := by
  cases hEntry :
      (st.cluster.lookup j u).entry i s.sessionId with
  | none => rfl
  | some session =>
      rcases st.cluster.entry_of_lookup j u hEntry with
        hOld | ⟨-, -, r, hMemR, hSid, -⟩
      · rw [hNone] at hOld
        cases hOld
      · -- a record of it is of an open session
        rcases hInv.record_open _ r hMemR with
          ⟨k, t, hOpenT, hSame, -⟩
        have hEq := hInv.unique _ (hInv.open_added hOpenT) _
          hMem (hSame.trans hSid)
        cases hEq
        rw [Cluster.Open, hNone] at hOpenT
        cases hOpenT

/- A session that was closed gets no handle any more. -/
theorem closed_step
    (hInv : BoundInv st)
    (hMem : (i, s) ∈ st.added)
    (hNone : st.cluster.entry i s.sessionId = none)
    (hStep : CloseStep st st') :
    (i, s) ∈ st'.added ∧
      st'.cluster.entry i s.sessionId = none := by
  cases hStep with
  | login fault hFresh _ =>
      refine ⟨List.mem_cons_of_mem _ hMem, ?_⟩
      dsimp only
      rw [hInv.login_entry_ne _ hFresh fault (hFresh _ hMem)]
      exact hNone
  | close clock _ =>
      refine ⟨hMem, ?_⟩
      apply Option.eq_none_iff_forall_ne_some.mpr
      intro session hEntry
      have hOld := Cluster.entry_of_close clock hEntry
      rw [hNone] at hOld
      cases hOld
  | lookup j u =>
      exact ⟨hMem, hInv.lookup_closed hMem hNone j u⟩
  | peers j workerMap =>
      refine ⟨hMem, ?_⟩
      dsimp only
      by_cases hNode : i = j
      · subst hNode
        exact (Cluster.setSite_entry_self _ _ _ _).trans
          hNone
      · rw [Cluster.setSite_entry_ne _ _ _ hNode]
        exact hNone

/- Right after it was closed it has none. -/
theorem closed_now
    (hInv : BoundInv st)
    (hMem : (i, s) ∈ st.added)
    (clock : Int → String) :
    (st.closed i (some s) clock).cluster.entry i
      s.sessionId = none := by
  change (st.cluster.close i s clock).entry i _ = none
  rcases hInv.entry_added hMem with hNone | hOpen
  · rw [Cluster.close_none _ i s clock hNone]
    exact hNone
  · exact Cluster.close_entry_self clock hOpen

/- Nor has it later. -/
theorem closed_later
    (hInv : BoundInv st)
    (hMem : (i, s) ∈ st.added)
    (clock : Int → String)
    (hLater :
      Transition.Reach
        (fun x => x = st.closed i (some s) clock)
        CloseStep st') :
    st'.cluster.entry i s.sessionId = none := by
  have hAll :
      BoundInv st' ∧ (i, s) ∈ st'.added ∧
        st'.cluster.entry i s.sessionId = none := by
    apply hLater.invariant
    · rintro _ rfl
      exact ⟨hInv.close clock hMem, hMem,
        hInv.closed_now hMem clock⟩
    · rintro x y ⟨hInvX, hMemX, hNone⟩ hStep
      exact ⟨hInvX.step hStep,
        hInvX.closed_step hMemX hNone hStep⟩
  exact hAll.2.2

end BoundInv

/-
  A channel closes once exactly when it has a session, no
  sender is half connected at the first call, and no peer is
  connected at the second.
-/
theorem closesOnce_iff
    (st st' : Serial ι)
    (hReach : Transition.Reach SerialStart CloseStep st)
    (i : ι)
    (bound : Option LocalSession)
    (hBound : ∀ s, bound = some s → (i, s) ∈ st.added)
    (clock clock' : Int → String)
    (hLater :
      Transition.Reach (fun x => x = st.closed i bound clock)
        CloseStep st') :
    ClosesOnce bound (st.cluster.site i) clock
        (st'.cluster.site i) clock' ↔
      bound ≠ none ∧
        ((st.cluster.nodes i).PeersAll fun sender =>
          sender.broken = false) ∧
        ((st'.cluster.nodes i).PeersAll fun sender =>
          sender.connectFlag = false) := by
  cases bound with
  | none =>
      constructor
      · intro hOnce
        cases hOnce.noThrow
      · intro hAll
        exact absurd rfl hAll.1
  | some s =>
      have hMem := hBound s rfl
      have hInv : BoundInv st :=
        hReach.invariant (fun _ hStart => .start hStart)
          fun _ _ hBefore hStep => hBefore.step hStep
      have hNone := hInv.closed_later hMem clock hLater
      constructor
      · intro hOnce
        exact ⟨Option.some_ne_none s,
          (thrown_closeSession_iff _ s clock).mp
            hOnce.noThrow,
          (silent_closeSession_iff _ s clock').mp
            ⟨hOnce.noThrow_again, hOnce.noSend⟩⟩
      · rintro ⟨-, hSound, hQuiet⟩
        have hSilent :=
          (silent_closeSession_iff (st'.cluster.site i) s
            clock').mpr hQuiet
        constructor
        case noThrow =>
          exact (thrown_closeSession_iff _ s clock).mpr
            hSound
        case noThrow_again => exact hSilent.noThrow
        case noSession =>
          exact fun hNo => absurd hNo (Option.some_ne_none s)
        case unchanged => exact remove_none hNone
        case noSend => exact hSilent.noSend

/- A node that has just registered, and no other. -/
theorem serialStart_oneNode :
    SerialStart
      (⟨⟨fun _ : Unit => Node.new {}, Redis.empty⟩, [],
        []⟩ : Serial Unit) :=
  ⟨fun _ _ _ => rfl, fun _ => ⟨rfl, rfl⟩, rfl, rfl, rfl⟩

/- A client that logged in on a node without peers. -/
theorem closesOnce_noPeers :
    ClosesOnce (some ⟨⟨1, true⟩, some "u", "a"⟩)
      ((add ⟨Node.new {}, Redis.empty⟩
        ⟨⟨1, true⟩, some "u", "a"⟩ fun _ => "0").site :
          Site Unit)
      (fun _ => "0")
      (closeSession
        (add ⟨Node.new {}, Redis.empty⟩
          ⟨⟨1, true⟩, some "u", "a"⟩ fun _ => "0").site
        (some ⟨⟨1, true⟩, some "u", "a"⟩) fun _ => "0").site
      (fun _ => "0") := by
  have hReach :=
    (Transition.Reach.init serialStart_oneNode).step
      (CloseStep.login (i := ())
        (s := ⟨⟨1, true⟩, some "u", "a"⟩)
        (fun _ => none) (by simp) (by simp))
  refine (closesOnce_iff _ _ hReach ()
    (some ⟨⟨1, true⟩, some "u", "a"⟩) ?_
    (fun _ => "0") (fun _ => "0") (.init rfl)).mpr
    ⟨by simp, ?_, ?_⟩
  · intro s hBound
    obtain rfl := Option.some.inj hBound
    exact List.mem_cons_self
  · exact fun key sender hLookup => by cases hLookup
  · exact fun key sender hLookup => by cases hLookup

/- A channel goes away on which nobody logged in. -/
theorem noSession_closing_throws :
    ¬ ∀ (st st' : Serial Unit),
      Transition.Reach SerialStart CloseStep st →
      ∀ (i : Unit) (bound : Option LocalSession),
      (∀ s, bound = some s → (i, s) ∈ st.added) →
      ∀ clock clock' : Int → String,
      Transition.Reach (fun x => x = st.closed i bound clock)
        CloseStep st' →
      ClosesOnce bound (st.cluster.site i) clock
        (st'.cluster.site i) clock' := by
  intro hAll
  have hOnce := hAll _ _ (.init serialStart_oneNode) () none
    (fun _ hBound => by cases hBound)
    (fun _ => "0") (fun _ => "0") (.init rfl)
  cases hOnce.noThrow

end NettyCluster
