import Mathlib.Data.List.Induction
import NettyCluster.Session.SessionManager

/-
  The handles a node keeps of sessions on other nodes.

  A node learns of such sessions from online notices and
  from lookups. An offline notice asks whether the session
  id is among the values of the map, which it never is, so
  that the handle stays.

  Main declarations:
    * `HandleCall`
    * `HandleCall.run`
    * `NoticesTakeEffect`, `RemotesLearned`
    * `noticesTakeEffect_iff`
-/

------------------------------------------------------------
-- Calls on a Session Manager
------------------------------------------------------------

namespace NettyCluster

open SessionManager

variable {ι : Type}

/-
  A call on the session manager of a node. The records the
  call finds are part of it, as other nodes change them.
-/
inductive HandleCall where
| add
    (redis : Redis)
    (s : LocalSession)
    (clock : Int → String)
| getSessionByUserId
    (redis : Redis)
    (userid : Option String)
| addRemoteSession (r : SessionNodeCache)
| removeRemoteSession (sid : String)
| remove (redis : Redis) (sid : String)

namespace HandleCall

/- The node after a call. -/
def step
    (node : Node ι) : HandleCall → Node ι
| .add redis s clock =>
    (SessionManager.add ⟨node, redis⟩ s clock).site.node
| .getSessionByUserId redis userid =>
    (SessionManager.getSessionByUserId ⟨node, redis⟩
      userid).2
| .addRemoteSession r =>
    SessionManager.addRemoteSession node r
| .removeRemoteSession sid =>
    SessionManager.removeRemoteSession node sid
| .remove redis sid =>
    (SessionManager.remove ⟨node, redis⟩ sid).node

/- The node after a sequence of calls. -/
def run
    (node : Node ι)
    (calls : List HandleCall) : Node ι :=
  calls.foldl step node

/- The sessions a call tells the node of. -/
def learns : HandleCall → List String
| .getSessionByUserId redis userid =>
    sids (UserCacheImpl.records redis userid)
| .addRemoteSession r => [r.sessionid]
| _ => []

@[simp] theorem run_concat
    (node : Node ι)
    (calls : List HandleCall)
    (call : HandleCall) :
    run node (calls ++ [call]) =
      step (run node calls) call := by
  simp [run]

end HandleCall

/- The node has a handle of a session on another node. -/
def HasRemote
    (node : Node ι)
    (sid : String) : Prop :=
  ∃ r, node.sessionMap.lookup sid =
    some (.remoteSession r)

/- Told of a session after the last notice it is offline. -/
def LearnedSince
    (calls : List HandleCall)
    (sid : String) : Prop :=
  ∃ before call after,
    calls = before ++ call :: after ∧
      sid ∈ call.learns ∧
      .removeRemoteSession sid ∉ after

/-
  Every offline notice for a session on another node drops
  its handle, and no other one.
-/
def NoticesTakeEffect
    (node : Node ι)
    (calls : List HandleCall) : Prop :=
  ∀ before sid after,
    calls = before ++ .removeRemoteSession sid :: after →
      HasRemote (HandleCall.run node before) sid →
        let old := HandleCall.run node before
        let new := HandleCall.run node
          (before ++ [.removeRemoteSession sid])
        new.sessionMap.lookup sid = none ∧
          ∀ sid', sid' ≠ sid →
            new.sessionMap.lookup sid' =
              old.sessionMap.lookup sid'

/-
  At any time the handles of sessions on other nodes are of
  sessions the node was told of since they last went
  offline.
-/
def RemotesLearned
    (node : Node ι)
    (calls : List HandleCall) : Prop :=
  ∀ before, before <+: calls →
    ∀ sid, HasRemote (HandleCall.run node before) sid →
      LearnedSince before sid

/- No offline notice is for a session with a handle. -/
def NoticesMiss
    (node : Node ι)
    (calls : List HandleCall) : Prop :=
  ∀ before sid after,
    calls = before ++ .removeRemoteSession sid :: after →
      ¬ HasRemote (HandleCall.run node before) sid

------------------------------------------------------------
-- Handles along a Run
------------------------------------------------------------

namespace HandleCall

/- A handle was there before, or the call told of it. -/
theorem hasRemote_step
    {node : Node ι}
    {call : HandleCall}
    {sid : String}
    (hRemote : HasRemote (step node call) sid) :
    HasRemote node sid ∨ sid ∈ call.learns := by
  rcases hRemote with ⟨r, hLookup⟩
  cases call with
  | add redis s clock =>
      left
      rw [step, add_sessionMap] at hLookup
      by_cases hSame : sid = s.sessionId
      · subst hSame
        rw [AList.lookup_insert] at hLookup
        simp at hLookup
      · rw [AList.lookup_insert_ne hSame] at hLookup
        exact ⟨r, hLookup⟩
  | getSessionByUserId redis userid =>
      rw [step, getSessionByUserId_lookup] at hLookup
      cases hOld : node.sessionMap.lookup sid with
      | some session =>
          left
          simp only [hOld] at hLookup
          exact ⟨r, hOld.trans hLookup⟩
      | none =>
          right
          simp only [hOld, Option.map_eq_some_iff]
            at hLookup
          rcases hLookup with ⟨record, hFind, -⟩
          have hSid := List.find?_some hFind
          simp only [decide_eq_true_eq] at hSid
          rw [← hSid]
          exact List.mem_map_of_mem
            (List.mem_of_find?_eq_some hFind)
  | addRemoteSession record =>
      rw [step, addRemoteSession_sessionMap] at hLookup
      by_cases hSame : sid = record.sessionid
      · right
        simp [learns, hSame]
      · left
        rw [AList.lookup_insert_ne hSame] at hLookup
        exact ⟨r, hLookup⟩
  | removeRemoteSession sid' =>
      left
      rw [step, removeRemoteSession_eq] at hLookup
      exact ⟨r, hLookup⟩
  | remove redis sid' =>
      left
      rw [step] at hLookup
      cases hSome : node.sessionMap.lookup sid' with
      | none =>
          rw [remove_none hSome] at hLookup
          exact ⟨r, hLookup⟩
      | some session =>
          rw [remove_sessionMap hSome] at hLookup
          by_cases hSame : sid = sid'
          · subst hSame
            rw [AList.lookup_erase] at hLookup
            simp at hLookup
          · rw [AList.lookup_erase_ne hSame] at hLookup
            exact ⟨r, hLookup⟩

/-
  Along a run whose offline notices find no handle, every
  handle was learned of since the last notice.
-/
theorem learnedSince_of_hasRemote
    {node : Node ι}
    (hFresh : node.sessionMap = ∅)
    (calls : List HandleCall)
    (hMiss : NoticesMiss node calls)
    {sid : String}
    (hRemote : HasRemote (run node calls) sid) :
    LearnedSince calls sid := by
  induction calls using List.reverseRecOn with
  | nil =>
      rcases hRemote with ⟨r, hLookup⟩
      simp [run, hFresh] at hLookup
  | append_singleton calls call ih =>
      have hMissBefore : NoticesMiss node calls := by
        intro before sid' after hCalls
        apply hMiss before sid' (after ++ [call])
        simp [hCalls]
      rw [run_concat] at hRemote
      rcases hasRemote_step hRemote with hOld | hLearn
      · rcases ih hMissBefore hOld with
          ⟨before, c, after, rfl, hMem, hAfter⟩
        refine ⟨before, c, after ++ [call], by simp, hMem,
          ?_⟩
        rw [List.mem_append, List.mem_singleton]
        rintro (hMemAfter | rfl)
        · exact hAfter hMemAfter
        · exact hMiss (before ++ c :: after) sid [] rfl hOld
      · exact ⟨calls, call, [], rfl, hLearn,
          List.not_mem_nil⟩

end HandleCall

/-
  Offline notices take effect, and the handles of sessions
  on other nodes stay among the learned ones, exactly in the
  runs in which no notice finds a handle to drop.
-/
theorem noticesTakeEffect_iff
    (node : Node ι)
    (hFresh : node.sessionMap = ∅)
    (calls : List HandleCall) :
    (NoticesTakeEffect node calls ∧
        RemotesLearned node calls) ↔
      NoticesMiss node calls := by
  constructor
  · intro hBoth before sid after hCalls hRemote
    have hEffect := hBoth.1
    have hGone := (hEffect before sid after hCalls
      hRemote).1
    rcases hRemote with ⟨r, hLookup⟩
    rw [HandleCall.run_concat, HandleCall.step,
      removeRemoteSession_eq, hLookup] at hGone
    simp at hGone
  · intro hMiss
    refine ⟨?_, ?_⟩
    · intro before sid after hCalls hRemote
      exact absurd hRemote (hMiss before sid after hCalls)
    · rintro before ⟨rest, rfl⟩ sid hRemote
      refine HandleCall.learnedSince_of_hasRemote hFresh
        before ?_ hRemote
      rintro before' sid' after rfl
      exact hMiss before' sid' (after ++ rest) (by simp)

/- A node that was told of one session, and not of another. -/
def onlineCalls : List HandleCall :=
  [.addRemoteSession ⟨some "u", "a", {}⟩,
    .removeRemoteSession "b"]

/- The notice about the other one finds no handle. -/
theorem noticesTakeEffect_online :
    NoticesTakeEffect (Node.new {} : Node Unit)
        onlineCalls ∧
      RemotesLearned (Node.new {} : Node Unit)
        onlineCalls := by
  refine (noticesTakeEffect_iff (Node.new {}) rfl
    onlineCalls).mpr ?_
  rintro before sid after hCalls ⟨r, hLookup⟩
  rcases before with _ | ⟨call, _ | ⟨call', before⟩⟩
  · simp [onlineCalls] at hCalls
  · simp only [onlineCalls, List.cons_append,
      List.nil_append, List.cons.injEq,
      HandleCall.removeRemoteSession.injEq] at hCalls
    rcases hCalls with ⟨rfl, rfl, -⟩
    cases hLookup
  · simp [onlineCalls] at hCalls

/- A session that went offline keeps its handle. -/
theorem offline_notice_ignored :
    ¬ ∀ (node : Node Unit) (calls : List HandleCall),
      node.sessionMap = ∅ →
      NoticesTakeEffect node calls ∧
        RemotesLearned node calls := by
  intro hAll
  have hEffect := (hAll (Node.new {})
    [.addRemoteSession ⟨some "u", "a", {}⟩,
      .removeRemoteSession "a"] rfl).1
    [.addRemoteSession ⟨some "u", "a", {}⟩] "a" [] rfl
    ⟨⟨⟨some "u", "a", {}⟩⟩, rfl⟩
  have hKept :
      (HandleCall.run (Node.new {} : Node Unit)
        ([.addRemoteSession ⟨some "u", "a", {}⟩] ++
          [.removeRemoteSession "a"])).sessionMap.lookup
            "a" =
        some (.remoteSession ⟨⟨some "u", "a", {}⟩⟩) := by
    decide
  have hGone := hKept.symm.trans hEffect.1
  simp at hGone

end NettyCluster
