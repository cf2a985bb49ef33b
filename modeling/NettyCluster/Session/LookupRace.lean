import NettyCluster.Lib.Transition
import NettyCluster.Session.Login

/-
  Lookups while a session is closed.

  A lookup reads the user's record once and then asks the
  map for one session after the other. A session it does not
  find there it takes for one of another node and puts a
  handle of it into the map, while the closing of the same
  session takes its handle out.

  Main declarations:
    * `LookupPc`, `LookupRace.lookupStep`
    * `LookupRace.NotResurrected`
    * `LookupRace.notResurrected_of_inTime`
-/

------------------------------------------------------------
-- Lookups
------------------------------------------------------------

namespace NettyCluster

variable {ι : Type}

/-
  How far a lookup is: which records it has yet to ask the
  map for, and the handles it has.
-/
inductive LookupPc where
| called
| listed
    (rest : List SessionNodeCache)
    (sessions : List ServerSession)
| absent
    (r : SessionNodeCache)
    (rest : List SessionNodeCache)
    (sessions : List ServerSession)
| returned (sessions : Option (List ServerSession))
deriving DecidableEq

/- The next step of a lookup. -/
def LookupPc.step
    (userid : Option String)
    (site : Site ι) : LookupPc → Site ι × LookupPc
| called =>
    match UserCacheImpl.get site.redis userid with
    | none => (site, returned none)
    | some userCache =>
        if userCache.map.isEmpty then
          (site, returned none)
        else
          (site, listed userCache.map [])
| listed [] sessions => (site, returned (some sessions))
| listed (r :: rest) sessions =>
    match site.node.sessionMap.lookup r.sessionid with
    | some session =>
        (site, listed rest (sessions ++ [session]))
    | none => (site, absent r rest sessions)
| absent r rest sessions =>
    let session := .remoteSession ⟨r⟩
    ({ site with
        node := site.node.setSessionMap
          (site.node.sessionMap.insert r.sessionid session) },
      listed rest (sessions ++ [session]))
| returned sessions => (site, returned sessions)

/- Several steps of a lookup. -/
def LookupPc.run
    (userid : Option String)
    (n : Nat)
    (site : Site ι)
    (pc : LookupPc) : Site ι × LookupPc :=
  (fun p => LookupPc.step userid p.1 p.2)^[n] (site, pc)

/- A lookup that runs alone resolves what it has listed. -/
theorem LookupPc.run_listed
    (userid : Option String)
    (site : Site ι)
    (records : List SessionNodeCache)
    (sessions : List ServerSession) :
    ∃ n, LookupPc.run userid n site
        (.listed records sessions) =
      ({ site with
          node := site.node.setSessionMap
            (SessionManager.resolve site.node.sessionMap
              records).2 },
        .returned (some
          (sessions ++
            (SessionManager.resolve site.node.sessionMap
              records).1))) := by
  induction records generalizing site sessions with
  | nil => exact ⟨1, by simp [run, step, SessionManager.resolve]⟩
  | cons r records ih =>
      cases hLookup :
          site.node.sessionMap.lookup r.sessionid with
      | some session =>
          rcases ih site (sessions ++ [session]) with ⟨n, hRun⟩
          refine ⟨n + 1, ?_⟩
          rw [run, Function.iterate_succ_apply, ← run]
          simp only [step, hLookup, hRun]
          simp [SessionManager.resolve, hLookup]
      | none =>
          rcases ih
            { site with
              node := site.node.setSessionMap
                (site.node.sessionMap.insert r.sessionid
                  (.remoteSession ⟨r⟩)) }
            (sessions ++ [.remoteSession ⟨r⟩]) with ⟨n, hRun⟩
          refine ⟨n + 2, ?_⟩
          rw [run, Function.iterate_succ_apply,
            Function.iterate_succ_apply, ← run]
          simp only [step, hLookup, hRun]
          simp [SessionManager.resolve, hLookup]
          rfl

/- A lookup that runs alone is the session manager's. -/
theorem LookupPc.run_getSessionByUserId
    (userid : Option String)
    (site : Site ι) :
    ∃ n, LookupPc.run userid n site .called =
      ({ site with
          node :=
            (SessionManager.getSessionByUserId site userid).2 },
        .returned
          (SessionManager.getSessionByUserId site
            userid).1) := by
  cases hGet : UserCacheImpl.get site.redis userid with
  | none =>
      exact ⟨1, by simp [run, step, hGet,
        SessionManager.getSessionByUserId]⟩
  | some userCache =>
      by_cases hEmpty : userCache.map = []
      · exact ⟨1, by simp [run, step, hGet, hEmpty,
          SessionManager.getSessionByUserId]⟩
      · rcases LookupPc.run_listed userid site userCache.map []
          with ⟨n, hRun⟩
        refine ⟨n + 1, ?_⟩
        rw [run, Function.iterate_succ_apply, ← run]
        simp [step, hGet, hEmpty, hRun,
          SessionManager.getSessionByUserId]

end NettyCluster

------------------------------------------------------------
-- Lookups and a Closing
------------------------------------------------------------

namespace NettyCluster

variable {κ ι : Type}

/- A channel that is being closed, and the lookups. -/
structure LookupRace (κ ι : Type) where
  client : ClientLogin ι
  lookups : κ → LookupPc

namespace LookupRace

/- The closing of the channel makes its next step. -/
def closeStep (st : LookupRace κ ι) : LookupRace κ ι :=
  let next := st.client.closeStep st.client.closing
  { st with client := { next.1 with closing := next.2 } }

/- A lookup makes its next step. -/
def lookupStep
    [DecidableEq κ]
    (u : String)
    (st : LookupRace κ ι)
    (k : κ) : LookupRace κ ι :=
  let next :=
    LookupPc.step (some u) st.client.site (st.lookups k)
  { st with
    client := st.client.setSite next.1
    lookups := Function.update st.lookups k next.2 }

/-
  A session of the user is bound to the channel and has its
  handle, and no call has been made.
-/
structure Start
    (u sid : String)
    (st : LookupRace κ ι) : Prop where
  sessionKey : st.client.sessionKey = some sid
  userid : st.client.userids sid = some u
  entry :
    st.client.site.node.sessionMap.lookup sid =
      some (.localSession (st.client.session sid))
  closing : st.client.closing = .active
  lookups : ∀ k, st.lookups k = .called

/- The closing and all lookups are done. -/
def Finished (st : LookupRace κ ι) : Prop :=
  st.client.closing = .closed ∧
    ∀ k, ∃ sessions, st.lookups k = .returned sessions

/-
  There is no handle of the session, and closing the channel
  once more does not change the balance.
-/
def NotResurrected
    (sid : String)
    (st : LookupRace κ ι) : Prop :=
  st.client.site.node.sessionMap.lookup sid = none ∧
    ∀ clock,
      (SessionManager.closeSession st.client.site
        (st.client.sessionKey.map st.client.session)
        clock).site.node.wsNode.balance =
        st.client.site.node.wsNode.balance

/- The closing has taken the handle out. -/
def Erased (st : LookupRace κ ι) : Prop :=
  7 ≤ st.client.closing.rank

instance (st : LookupRace κ ι) : Decidable st.Erased :=
  inferInstanceAs (Decidable (7 ≤ _))

/-
  A lookup that has the session on its list comes to it
  before the closing has taken its handle out.
-/
def InTime
    (sid : String)
    (st : LookupRace κ ι)
    (k : κ) : Prop :=
  ∀ r rest sessions,
    st.lookups k = .listed (r :: rest) sessions →
      r.sessionid = sid → ¬ st.Erased

variable [DecidableEq κ]

/- The closing or a lookup makes a step. -/
def AnyStep
    (u : String)
    (st st' : LookupRace κ ι) : Prop :=
  st' = st.closeStep ∨ ∃ k, st' = st.lookupStep u k

/- A step of the closing, or of a lookup in time. -/
def InTimeStep
    (u sid : String)
    (st st' : LookupRace κ ι) : Prop :=
  st' = st.closeStep ∨
    ∃ k, st' = st.lookupStep u k ∧ st.InTime sid k

end LookupRace

end NettyCluster

------------------------------------------------------------
-- Lookups in Time
------------------------------------------------------------

namespace NettyCluster

variable {κ ι : Type}

/-
  What a map has of a session, by how far its closing is.
-/
structure ClosePc.Fits
    (s : LocalSession)
    (sessionMap : SessionMap)
    (pc : ClosePc) : Prop where
  about : pc.About s.sessionId s.userid
  entry :
    sessionMap.lookup s.sessionId =
      if pc.rank < 7 then some (.localSession s) else none

/- Changes of other handles do not matter. -/
theorem ClosePc.Fits.insert
    {s : LocalSession}
    {sessionMap : SessionMap}
    {pc : ClosePc}
    (hFits : pc.Fits s sessionMap)
    {sid : String}
    (hOther : sid ≠ s.sessionId)
    (session : ServerSession) :
    pc.Fits s (sessionMap.insert sid session) where
  about := hFits.about
  entry := by
    rw [AList.lookup_insert_ne hOther.symm]
    exact hFits.entry

namespace ClientLogin

/- The closing keeps to the session of its channel. -/
theorem closeStep_fits
    {st : ClientLogin ι}
    {sid : String}
    (hKey : st.sessionKey = some sid)
    (hFits :
      st.closing.Fits (st.session sid)
        st.site.node.sessionMap) :
    (closeStep st st.closing).2.Fits (st.session sid)
      (closeStep st st.closing).1.site.node.sessionMap := by
  rcases hFits with ⟨hAbout, hEntry⟩
  cases hPc : st.closing with
  | active =>
      simp only [closeStep, hKey]
      rw [hPc] at hEntry
      exact ⟨rfl, hEntry⟩
  | bound s =>
      rw [hPc] at hAbout hEntry
      obtain rfl : s = sid := hAbout
      have hLookup :
          st.site.node.sessionMap.lookup s =
            some (.localSession (st.session s)) := hEntry
      simp only [closeStep, hLookup]
      exact ⟨⟨rfl, _, rfl, rfl⟩, hEntry⟩
  | found s session =>
      rw [hPc] at hAbout hEntry
      rcases hAbout with ⟨hSid, own, rfl, hOwn⟩
      exact ⟨⟨hSid, by rw [hOwn]; rfl⟩, hEntry⟩
  | removing s uid =>
      rw [hPc] at hAbout hEntry
      exact ⟨⟨hAbout.1, hAbout.2, OwnRecord.get _ _⟩, hEntry⟩
  | fetched s uid read =>
      rw [hPc] at hAbout hEntry
      exact ⟨hAbout.1, hEntry⟩
  | unrecorded s =>
      rw [hPc] at hAbout hEntry
      exact ⟨hAbout, hEntry⟩
  | deleted s =>
      rw [hPc] at hAbout
      obtain rfl : s = sid := hAbout
      exact ⟨trivial, AList.lookup_erase _ _⟩
  | erased =>
      rw [hPc] at hEntry
      exact ⟨trivial, hEntry⟩
  | closed =>
      rw [hPc] at hEntry
      exact ⟨trivial, hEntry⟩

/- The closing changes the site alone. -/
theorem closeStep_frame
    (st : ClientLogin ι)
    (pc : ClosePc) :
    (closeStep st pc).1 =
      st.setSite (closeStep st pc).1.site := by
  cases pc with
  | active => dsimp only [closeStep]; split <;> rfl
  | bound sid => dsimp only [closeStep]; split <;> rfl
  | found sid session =>
      dsimp only [closeStep]; split <;> rfl
  | _ => rfl

end ClientLogin

namespace LookupPc

variable {u : Option String}
variable {site : Site ι}
variable {lookup : LookupPc}

/- A lookup puts handles of other sessions only. -/
theorem step_fits
    {s : LocalSession}
    {pc : ClosePc}
    (hFits : pc.Fits s site.node.sessionMap)
    (hPutting :
      ∀ r rest sessions, lookup = .absent r rest sessions →
        r.sessionid ≠ s.sessionId) :
    pc.Fits s (step u site lookup).1.node.sessionMap := by
  cases lookup with
  | called =>
      dsimp only [step]
      split
      · exact hFits
      · split_ifs <;> exact hFits
  | listed rest sessions =>
      rcases rest with _ | ⟨r, rest⟩
      · exact hFits
      · dsimp only [step]
        split <;> exact hFits
  | absent r rest sessions =>
      exact hFits.insert (hPutting r rest sessions rfl) _
  | returned sessions => exact hFits

/- A lookup is about to put what it has not found. -/
theorem step_absent
    {r : SessionNodeCache}
    {rest : List SessionNodeCache}
    {sessions : List ServerSession}
    (hAbsent :
      (step u site lookup).2 = .absent r rest sessions) :
    lookup = .listed (r :: rest) sessions ∧
      site.node.sessionMap.lookup r.sessionid = none := by
  cases lookup with
  | called =>
      dsimp only [step] at hAbsent
      split at hAbsent
      · cases hAbsent
      · split_ifs at hAbsent
  | listed rest' sessions' =>
      rcases rest' with _ | ⟨r', rest'⟩
      · cases hAbsent
      · dsimp only [step] at hAbsent
        split at hAbsent
        · cases hAbsent
        · next hLookup =>
            cases hAbsent
            exact ⟨rfl, hLookup⟩
  | absent r' rest' sessions' => cases hAbsent
  | returned sessions' => cases hAbsent

end LookupPc

namespace LookupRace

/- The invariant of runs in time. -/
structure Inv
    (s : LocalSession)
    (st : LookupRace κ ι) : Prop where
  sessionKey : st.client.sessionKey = some s.sessionId
  session : st.client.session s.sessionId = s
  fits :
    st.client.closing.Fits s st.client.site.node.sessionMap
  putting :
    ∀ k r rest sessions,
      st.lookups k = .absent r rest sessions →
        r.sessionid ≠ s.sessionId

namespace Inv

variable {s : LocalSession}
variable {st : LookupRace κ ι}

theorem start
    {u sid : String}
    (hStart : Start u sid st) :
    Inv (st.client.session sid) st where
  sessionKey := hStart.sessionKey
  session := rfl
  fits := by
    rw [hStart.closing]
    exact ⟨trivial, hStart.entry⟩
  putting k r rest sessions hAbsent := by
    rw [hStart.lookups k] at hAbsent
    cases hAbsent

/- The closing keeps the invariant. -/
theorem closeStep
    (hInv : Inv s st) :
    Inv s st.closeStep := by
  have hFrame :=
    ClientLogin.closeStep_frame st.client st.client.closing
  constructor
  case sessionKey =>
    change (st.client.closeStep _).1.sessionKey = _
    rw [hFrame]
    exact hInv.sessionKey
  case session =>
    change (st.client.closeStep _).1.session _ = _
    rw [hFrame]
    exact hInv.session
  case fits =>
    have hFits := hInv.fits
    rw [← hInv.session] at hFits
    have hNext :=
      ClientLogin.closeStep_fits hInv.sessionKey hFits
    rwa [hInv.session] at hNext
  case putting => exact hInv.putting

/- A lookup in time keeps the invariant. -/
theorem lookupStep
    [DecidableEq κ]
    (hInv : Inv s st)
    (u : String)
    {k : κ}
    (hInTime : st.InTime s.sessionId k) :
    Inv s (st.lookupStep u k) := by
  constructor
  case sessionKey => exact hInv.sessionKey
  case session => exact hInv.session
  case fits =>
    exact LookupPc.step_fits hInv.fits (hInv.putting k)
  case putting =>
    intro k' r rest sessions hAbsent
    by_cases hSame : k' = k
    · subst hSame
      simp only [LookupRace.lookupStep,
        Function.update_self] at hAbsent
      rcases LookupPc.step_absent hAbsent with
        ⟨hListed, hNone⟩
      intro hSid
      have hEarly := hInTime r rest sessions hListed hSid
      have hEntry := hInv.fits.entry
      rw [if_pos (Nat.lt_of_not_le hEarly), ← hSid, hNone]
        at hEntry
      cases hEntry
    · simp only [LookupRace.lookupStep,
        Function.update_of_ne hSame] at hAbsent
      exact hInv.putting k' r rest sessions hAbsent

/- A closing that is done has left no handle. -/
theorem notResurrected
    (hInv : Inv s st)
    (hClosed : st.client.closing = .closed) :
    st.NotResurrected s.sessionId := by
  have hNone :
      st.client.site.node.sessionMap.lookup s.sessionId =
        none := by
    have hEntry := hInv.fits.entry
    rwa [hClosed] at hEntry
  refine ⟨hNone, fun clock => ?_⟩
  rw [hInv.sessionKey, Option.map_some, hInv.session]
  simp only [SessionManager.closeSession]
  rw [SessionManager.remove_none hNone]

end Inv

/-
  In every run whose lookups are in time, the session is not
  resurrected.
-/
theorem notResurrected_of_inTime
    [DecidableEq κ]
    (u sid : String)
    (st : LookupRace κ ι)
    (hReach :
      Transition.Reach (Start u sid) (InTimeStep u sid) st)
    (hFinished : st.Finished) :
    st.NotResurrected sid := by
  have hInv : ∃ s : LocalSession,
      s.sessionId = sid ∧ Inv s st := by
    apply hReach.invariant
    · exact fun st hStart => ⟨_, rfl, .start hStart⟩
    · rintro st _ ⟨s, rfl, hInv⟩ (rfl | ⟨k, rfl, hInTime⟩)
      · exact ⟨s, rfl, hInv.closeStep⟩
      · exact ⟨s, rfl, hInv.lookupStep u hInTime⟩
  rcases hInv with ⟨s, rfl, hInv⟩
  exact hInv.notResurrected hFinished.1

/- A user who has logged in once. -/
def loggedIn : LookupRace Unit Unit where
  client :=
    { site :=
        (SessionManager.add ⟨Node.new {}, Redis.empty⟩
          ⟨⟨1, true⟩, some "u", "a"⟩ fun _ => "0").site
      channel := ⟨1, true⟩
      userids := fun _ => some "u"
      localSession := some "a"
      sessionKey := some "a"
      connectHandler := false
      tasks := []
      closing := .active
      created := ["a"] }
  lookups := fun _ => .called

theorem start_loggedIn : Start "u" "a" loggedIn :=
  ⟨rfl, rfl, rfl, rfl, fun _ => rfl⟩

/- A lookup that is done before the closing begins. -/
theorem notResurrected_lookupFirst :
    NotResurrected "a"
      (closeStep^[8]
        (((loggedIn.lookupStep "u" ()).lookupStep "u"
          ()).lookupStep "u" ())) := by
  apply notResurrected_of_inTime "u" "a"
  · apply Transition.Reach.iterate fun _ => .inl rfl
    have hEarly :
        ∀ st : LookupRace Unit Unit,
          st.client.closing = .active → st.InTime "a" () := by
      intro st hActive r rest sessions _ _ hErased
      rw [Erased, hActive] at hErased
      exact absurd hErased (by decide)
    exact .step (.step (.step (.init start_loggedIn)
      (.inr ⟨(), rfl, hEarly _ rfl⟩))
      (.inr ⟨(), rfl, hEarly _ rfl⟩))
      (.inr ⟨(), rfl, hEarly _ rfl⟩)
  · exact ⟨rfl, fun _ => ⟨_, rfl⟩⟩

/- The closing is done between a list and its first get. -/
theorem resurrected_lookupLast :
    ¬ ∀ st : LookupRace Unit Unit,
      Transition.Reach (Start "u" "a") (AnyStep "u") st →
      st.Finished →
      st.NotResurrected "a" := by
  intro hAll
  have hReach :
      Transition.Reach (Start "u" "a") (AnyStep "u")
        ((fun st => lookupStep "u" st ())^[3]
          (closeStep^[8] (loggedIn.lookupStep "u" ()))) :=
    .iterate (fun _ => .inr ⟨(), rfl⟩) 3
      (.iterate (fun _ => .inl rfl) 8
        (.step (.init start_loggedIn) (.inr ⟨(), rfl⟩)))
  have hNone :=
    (hAll _ hReach ⟨rfl, fun _ => ⟨_, rfl⟩⟩).1
  exact absurd hNone (by decide)

end LookupRace

end NettyCluster
