import NettyCluster.Lib.Faulty
import NettyCluster.Session.Cluster

/-
  Logins that stop halfway and are closed afterwards.

  Logging in makes five steps, each of which may throw.
  Closing decides by the session's handle alone whether to
  undo all of them.

  Main declarations:
    * `AddStep`, `SessionManager.addUntil`
    * `SessionManager.Undone`
    * `SessionManager.undone_iff`
-/

------------------------------------------------------------
-- The Steps of a Login
------------------------------------------------------------

namespace NettyCluster

variable {ι : Type}

/- What a step may throw, other than what is modelled. -/
inductive Throwable where
| exception (message : String)
| error (message : String)
deriving DecidableEq, Repr

/- The steps of logging a session in, in order. -/
inductive AddStep where
| putLocal
| saveSession
| addUserSession
| incBalance
| notifyOtherWsNodeOnLine
deriving DecidableEq, Repr

namespace AddStep

/- The steps in the order they are made. -/
def all : List AddStep :=
  [putLocal, saveSession, addUserSession, incBalance,
    notifyOtherWsNodeOnLine]

/- What a step does to the node and the records. -/
def effect
    (s : LocalSession) : AddStep → Site ι → Site ι
| putLocal, site => SessionManager.putLocal site s
| saveSession, site => SessionManager.saveSession site s
| addUserSession, site =>
    SessionManager.addUserSession site s
| incBalance, site => SessionManager.incBalance site
| notifyOtherWsNodeOnLine, site => site

end AddStep

namespace SessionManager

/- Log a session in until a step throws. -/
def addUntil
    (fault : AddStep → Option Throwable)
    (site : Site ι)
    (s : LocalSession) : Site ι × Option Throwable :=
  Faulty.run (AddStep.effect s) fault AddStep.all site

/- Without a fault the session is logged in. -/
theorem addUntil_add
    (site : Site ι)
    (s : LocalSession)
    (clock : Int → String) :
    addUntil (fun _ => none) site s =
      ((add site s clock).site, none) :=
  rfl

/- Neither the node nor the records know the session. -/
structure Fresh
    (site : Site ι)
    (sid : String) : Prop where
  entry : site.node.sessionMap.lookup sid = none
  session : SessionCacheImpl.get site.redis sid = none
  recorded :
    ∀ uid, ∀ r ∈ UserCacheImpl.records site.redis uid,
      r.sessionid ≠ sid

/- The handles, the records and the counter are the same. -/
structure Undone (before after : Site ι) : Prop where
  sessionMap :
    ∀ sid, after.node.sessionMap.lookup sid =
      before.node.sessionMap.lookup sid
  session :
    ∀ sid, SessionCacheImpl.get after.redis sid =
      SessionCacheImpl.get before.redis sid
  recorded :
    ∀ uid r,
      r ∈ UserCacheImpl.records after.redis uid ↔
        r ∈ UserCacheImpl.records before.redis uid
  balance :
    after.node.wsNode.balance = before.node.wsNode.balance

end SessionManager

end NettyCluster

------------------------------------------------------------
-- Closing a Partial Login
------------------------------------------------------------

namespace NettyCluster

variable {ι : Type}

namespace SessionManager

/-
  A site on which a login has put the session into the map
  and done some of the rest.
-/
structure Partial
    (before : Site ι)
    (s : LocalSession)
    (site : Site ι) : Prop where
  sessionMap :
    site.node.sessionMap =
      before.node.sessionMap.insert s.sessionId
        (.localSession s)
  session :
    ∀ sid, sid ≠ s.sessionId →
      SessionCacheImpl.get site.redis sid =
        SessionCacheImpl.get before.redis sid
  recorded :
    ∀ uid r,
      (r ∈ UserCacheImpl.records site.redis uid ∧
        (userKey uid = userKey s.userid →
          r.sessionid ≠ s.sessionId)) ↔
        r ∈ UserCacheImpl.records before.redis uid

namespace Partial

variable {before site : Site ι}
variable {s : LocalSession}

theorem putLocal
    (hFresh : Fresh before s.sessionId) :
    Partial before s (SessionManager.putLocal before s) where
  sessionMap := rfl
  session _ _ := rfl
  recorded uid r := by
    constructor
    · exact And.left
    · exact fun hMem =>
        ⟨hMem, fun _ => hFresh.recorded uid r hMem⟩

/- The steps after the first keep what it has done. -/
theorem effect
    (hPartial : Partial before s site)
    {step : AddStep}
    (hStep : step ≠ .putLocal) :
    Partial before s (step.effect s site) := by
  cases step with
  | putLocal => exact absurd rfl hStep
  | saveSession =>
      refine ⟨hPartial.sessionMap, ?_, hPartial.recorded⟩
      intro sid hOther
      have hSave := SessionCacheImpl.get_save site.redis
        (nodeCache site s) sid
      rw [← hPartial.session sid hOther]
      exact hSave.trans (if_neg hOther)
  | addUserSession =>
      refine ⟨hPartial.sessionMap, hPartial.session, ?_⟩
      intro uid r
      rw [← hPartial.recorded uid r]
      have hAdd := UserCacheImpl.mem_records_addSession
        site.redis s.userid uid (nodeCache site s) r
      constructor
      · rintro ⟨hMem, hOther⟩
        rcases hAdd.mp hMem with ⟨hKey, rfl⟩ | ⟨hOld, -⟩
        · exact absurd rfl (hOther hKey)
        · exact ⟨hOld, hOther⟩
      · rintro ⟨hMem, hOther⟩
        exact ⟨hAdd.mpr (.inr ⟨hMem, hOther⟩), hOther⟩
  | incBalance =>
      exact ⟨hPartial.sessionMap, hPartial.session,
        hPartial.recorded⟩
  | notifyOtherWsNodeOnLine => exact hPartial

/-
  Closing undoes all but the counter, which it always takes
  one off.
-/
theorem undone_close_iff
    (hFresh : Fresh before s.sessionId)
    (hPartial : Partial before s site)
    (clock : Int → String) :
    Undone before (closeSession site (some s) clock).site ↔
      site.node.wsNode.balance =
        before.node.wsNode.balance + 1 := by
  have hLookup :
      site.node.sessionMap.lookup s.sessionId =
        some (.localSession s) := by
    rw [hPartial.sessionMap, AList.lookup_insert]
  change Undone before (remove site s.sessionId) ↔ _
  have hBalance := remove_balance hLookup
  constructor
  · intro hUndone
    rw [← hUndone.balance, hBalance, Int32.sub_add_cancel]
  · intro hCounted
    constructor
    case sessionMap =>
      intro sid
      rw [remove_sessionMap hLookup, hPartial.sessionMap]
      by_cases hSame : sid = s.sessionId
      · subst hSame
        rw [AList.lookup_erase, hFresh.entry]
      · rw [AList.lookup_erase_ne hSame,
          AList.lookup_insert_ne hSame]
    case session =>
      intro sid
      rw [remove_getSession hLookup]
      by_cases hSame : sid = s.sessionId
      · subst hSame
        rw [if_pos rfl, hFresh.session]
      · rw [if_neg hSame, hPartial.session sid hSame]
    case recorded =>
      intro uid r
      rw [mem_records_remove hLookup]
      exact hPartial.recorded uid r
    case balance =>
      rw [hBalance, hCounted, Int32.add_sub_cancel]

end Partial

/- Closing does nothing for a session without a handle. -/
theorem undone_close_fresh
    {before : Site ι}
    {s : LocalSession}
    (hFresh : Fresh before s.sessionId)
    (clock : Int → String) :
    Undone before
      (closeSession before (some s) clock).site := by
  change Undone before (remove before s.sessionId)
  rw [remove_none hFresh.entry]
  exact ⟨fun _ => rfl, fun _ => rfl, fun _ _ => Iff.rfl, rfl⟩

/- A login whose first step is made leaves this. -/
theorem addUntil_before_count
    {fault : AddStep → Option Throwable}
    {before : Site ι}
    {s : LocalSession}
    (hFresh : Fresh before s.sessionId)
    (hPut : fault .putLocal = none) :
    Partial before s (addUntil fault before s).1 := by
  rw [addUntil, AddStep.all, Faulty.run_goes_on _ hPut]
  apply Faulty.run_keeps
  · intro step hMem site hPartial
    apply hPartial.effect
    rintro rfl
    simp at hMem
  · exact Partial.putLocal hFresh

/- Only one of the steps changes the counter. -/
theorem effect_balance
    (s : LocalSession)
    (step : AddStep)
    (site : Site ι) :
    (step.effect s site).node.wsNode.balance =
      site.node.wsNode.balance +
        if step = .incBalance then 1 else 0 := by
  cases step <;> simp [AddStep.effect,
    SessionManager.putLocal, SessionManager.saveSession,
    SessionManager.addUserSession,
    SessionManager.incBalance]

/- The counter after the steps made before a fault. -/
theorem run_balance
    (fault : AddStep → Option Throwable)
    (s : LocalSession)
    (steps : List AddStep)
    (site : Site ι) :
    (Faulty.run (AddStep.effect s) fault steps
        site).1.node.wsNode.balance =
      site.node.wsNode.balance +
        Int32.ofNat ((steps.takeWhile fun step =>
          (fault step).isNone).count .incBalance) := by
  induction steps generalizing site with
  | nil => simp
  | cons step steps ih =>
      cases hFault : fault step with
      | some t =>
          rw [Faulty.run_throws _ hFault]
          simp [hFault]
      | none =>
          rw [Faulty.run_goes_on _ hFault, ih,
            effect_balance]
          rw [Int32.add_assoc]
          simp only [hFault, Option.isNone_none,
            List.takeWhile_cons_of_pos, List.count_cons,
            beq_iff_eq, Int32.ofNat_add]
          rw [Int32.add_comm (Int32.ofNat _)]
          split_ifs <;> rfl

/- The session is counted unless the login stops early. -/
theorem addUntil_balance
    {fault : AddStep → Option Throwable}
    (before : Site ι)
    (s : LocalSession)
    (hPut : fault .putLocal = none) :
    (addUntil fault before s).1.node.wsNode.balance =
        before.node.wsNode.balance + 1 ↔
      fault .saveSession = none ∧
        fault .addUserSession = none ∧
          fault .incBalance = none := by
  rw [addUntil, run_balance, AddStep.all]
  simp only [List.takeWhile_cons, hPut, Option.isNone_none,
    if_true]
  cases fault .saveSession <;>
    cases fault .addUserSession <;>
      cases fault .incBalance <;>
        cases fault .notifyOtherWsNodeOnLine <;>
          simp

/-
  Closing undoes a login that made no step or that counted
  the session, and no other.
-/
theorem undone_iff
    (fault : AddStep → Option Throwable)
    (before : Site ι)
    (s : LocalSession)
    (hFresh : Fresh before s.sessionId)
    (clock : Int → String) :
    Undone before
        (closeSession (addUntil fault before s).1 (some s)
          clock).site ↔
      fault .putLocal ≠ none ∨
        (fault .saveSession = none ∧
          fault .addUserSession = none ∧
            fault .incBalance = none) := by
  cases hPut : fault .putLocal with
  | some t =>
      rw [addUntil, AddStep.all, Faulty.run_throws _ hPut]
      constructor
      · intro _
        simp
      · intro _
        exact undone_close_fresh hFresh clock
  | none =>
      rw [(addUntil_before_count hFresh hPut).undone_close_iff
        hFresh, addUntil_balance before s hPut]
      simp

/- A node without sessions, and a new session of a user. -/
theorem fresh_new
    (wsNode : WsNode)
    (sid : String) :
    Fresh (⟨Node.new wsNode, Redis.empty⟩ : Site ι) sid where
  entry := rfl
  session := rfl
  recorded uid r hMem := by
    simp [UserCacheImpl.records, UserCacheImpl.get,
      Redis.empty] at hMem

/- The notice to the other nodes fails. -/
theorem undone_after_counting :
    Undone (⟨Node.new {}, Redis.empty⟩ : Site Bool)
      (closeSession
        (addUntil
          (fun step =>
            if step = .notifyOtherWsNodeOnLine then
              some (.exception "")
            else none)
          ⟨Node.new {}, Redis.empty⟩
          ⟨⟨1, true⟩, some "u", "a"⟩).1
        (some ⟨⟨1, true⟩, some "u", "a"⟩)
        (fun _ => "0")).site :=
  (undone_iff _ _ ⟨⟨1, true⟩, some "u", "a"⟩
    (fresh_new {} "a") (fun _ => "0")).mpr (by simp)

/-
  The session's record cannot be written: the command fails,
  and so does returning its connection, which is not caught.
-/
theorem uncounted_login_not_undone :
    ¬ Undone (⟨Node.new {}, Redis.empty⟩ : Site Bool)
      (closeSession
        (addUntil
          (fun step =>
            if step = .saveSession then
              some (.exception "returnResource")
            else none)
          ⟨Node.new {}, Redis.empty⟩
          ⟨⟨1, true⟩, some "u", "a"⟩).1
        (some ⟨⟨1, true⟩, some "u", "a"⟩)
        (fun _ => "0")).site := by
  intro hUndone
  have hBalance := hUndone.balance
  revert hBalance
  decide

end SessionManager

end NettyCluster
