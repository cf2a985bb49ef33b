import NettyCluster.Session.RemoteHandles

/-
  The handles a node keeps of its own sessions.

  Sessions of the node and of other nodes are in one map. An
  online notice asks whether the session id is among the
  values of the map, which it never is, so that it replaces
  whatever handle there is.

  Main declarations:
    * `LocalsKept`, `NoticesKeepHandles`
    * `NoticesFit`
    * `HandleCall.step_local`
    * `localsKept_iff`
-/

------------------------------------------------------------
-- Local Handles
------------------------------------------------------------

namespace NettyCluster

open SessionManager

variable {ι : Type}

/- No two sessions that log in have one id. -/
def UniqueIds (calls : List HandleCall) : Prop :=
  ∀ redis s clock redis' s' clock',
    HandleCall.add redis s clock ∈ calls →
    HandleCall.add redis' s' clock' ∈ calls →
    s'.sessionId = s.sessionId → s' = s

/-
  At any time a session that logged in and was not removed
  since has itself as its handle.
-/
def LocalsKept
    (node : Node ι)
    (calls : List HandleCall) : Prop :=
  ∀ before redis s clock after,
    before ++ .add redis s clock :: after <+: calls →
      (∀ redis', .remove redis' s.sessionId ∉ after) →
        (HandleCall.run node
          (before ++ .add redis s clock :: after)).sessionMap.lookup
            s.sessionId = some (.localSession s)

/-
  An online notice for a session that has a handle changes
  no handle.
-/
def NoticesKeepHandles
    (node : Node ι)
    (calls : List HandleCall) : Prop :=
  ∀ before r after,
    calls = before ++ .addRemoteSession r :: after →
      let old := HandleCall.run node before
      let new := HandleCall.run node
        (before ++ [.addRemoteSession r])
      (old.sessionMap.lookup r.sessionid).isSome →
        ∀ sid, new.sessionMap.lookup sid =
          old.sessionMap.lookup sid

/-
  An online notice is for a session without a handle, or for
  one whose handle was made for the same record.
-/
def NoticesFit
    (node : Node ι)
    (calls : List HandleCall) : Prop :=
  ∀ before r after,
    calls = before ++ .addRemoteSession r :: after →
      ∀ session,
        (HandleCall.run node before).sessionMap.lookup
            r.sessionid = some session →
          session = .remoteSession ⟨r⟩

------------------------------------------------------------
-- Handles along a Run
------------------------------------------------------------

namespace HandleCall

/-
  A call keeps the handle of a session of the node, unless
  it removes the session, is for another session of that id,
  or is an online notice of that id.
-/
theorem step_local
    {node : Node ι}
    {s : LocalSession}
    (hLocal :
      node.sessionMap.lookup s.sessionId =
        some (.localSession s))
    {call : HandleCall}
    (hRemove :
      ∀ redis, call ≠ .remove redis s.sessionId)
    (hAdd :
      ∀ redis s' clock, call = .add redis s' clock →
        s'.sessionId = s.sessionId → s' = s)
    (hNotice :
      ∀ r, call = .addRemoteSession r →
        r.sessionid ≠ s.sessionId) :
    (step node call).sessionMap.lookup s.sessionId =
      some (.localSession s) := by
  cases call with
  | add redis s' clock =>
      rw [step, add_sessionMap]
      by_cases hSame : s'.sessionId = s.sessionId
      · rw [hAdd redis s' clock rfl hSame,
          AList.lookup_insert]
      · rw [AList.lookup_insert_ne (Ne.symm hSame)]
        exact hLocal
  | getSessionByUserId redis userid =>
      rw [step, getSessionByUserId_lookup, hLocal]
  | addRemoteSession r =>
      rw [step, addRemoteSession_sessionMap,
        AList.lookup_insert_ne (Ne.symm (hNotice r rfl))]
      exact hLocal
  | removeRemoteSession sid =>
      rw [step, removeRemoteSession_eq]
      exact hLocal
  | remove redis sid =>
      have hNe : s.sessionId ≠ sid := by
        rintro rfl
        exact hRemove redis rfl
      rw [step]
      cases hSome : node.sessionMap.lookup sid with
      | none =>
          rw [remove_none hSome]
          exact hLocal
      | some session =>
          rw [remove_sessionMap hSome,
            AList.lookup_erase_ne hNe]
          exact hLocal

/- A session that logged in keeps its handle along a run. -/
theorem run_local
    {node : Node ι}
    {calls : List HandleCall}
    (hUnique : UniqueIds calls)
    (hFit : NoticesFit node calls)
    {before after : List HandleCall}
    {redis : Redis}
    {s : LocalSession}
    {clock : Int → String}
    (hPrefix : before ++ .add redis s clock :: after <+: calls)
    (hKept : ∀ redis', .remove redis' s.sessionId ∉ after) :
    (run node
      (before ++ .add redis s clock :: after)).sessionMap.lookup
        s.sessionId = some (.localSession s) := by
  induction after using List.reverseRecOn with
  | nil =>
      rw [run_concat, step, add_sessionMap,
        AList.lookup_insert]
  | append_singleton after call ih =>
      rw [← List.cons_append, ← List.append_assoc]
        at hPrefix ⊢
      have hLocal := ih
        ((List.prefix_append _ [call]).trans hPrefix)
        fun redis' hMem =>
          hKept redis' (List.mem_append_left _ hMem)
      rw [run_concat]
      rcases hPrefix with ⟨later, rfl⟩
      apply step_local hLocal
      case hRemove =>
        rintro redis' rfl
        exact hKept redis' (by simp)
      case hAdd =>
        rintro redis' s' clock' rfl hSame
        exact hUnique redis s clock redis' s' clock'
          (by simp) (by simp) hSame
      case hNotice =>
        rintro r rfl hSame
        have hRemote := hFit _ r later
          (by rw [List.append_assoc, List.singleton_append])
          (.localSession s) (by rw [hSame]; exact hLocal)
        cases hRemote

end HandleCall

/-
  Sessions keep their handles, and online notices keep the
  handles there are, exactly in the runs in which a notice
  finds no handle or one that was made for its record.
-/
theorem localsKept_iff
    (node : Node ι)
    (calls : List HandleCall)
    (hUnique : UniqueIds calls) :
    (LocalsKept node calls ∧
        NoticesKeepHandles node calls) ↔
      NoticesFit node calls := by
  constructor
  · rintro ⟨-, hKeep⟩ before r after hCalls session hLookup
    have hNew := hKeep before r after hCalls
      (by rw [hLookup]; rfl) r.sessionid
    rw [HandleCall.run_concat, HandleCall.step,
      addRemoteSession_sessionMap, AList.lookup_insert,
      hLookup] at hNew
    exact (Option.some.inj hNew).symm
  · intro hFit
    constructor
    · intro before redis s clock after hPrefix hKept
      exact HandleCall.run_local hUnique hFit hPrefix hKept
    · intro before r after hCalls old new hSome sid
      rcases Option.isSome_iff_exists.mp hSome with
        ⟨session, hLookup⟩
      obtain rfl := hFit before r after hCalls session hLookup
      dsimp only [new]
      rw [HandleCall.run_concat, HandleCall.step,
        addRemoteSession_sessionMap]
      by_cases hSame : sid = r.sessionid
      · rw [hSame, AList.lookup_insert, hLookup]
      · rw [AList.lookup_insert_ne hSame]

/- One login cannot clash with another. -/
theorem uniqueIds_oneLogin
    (redis : Redis)
    (s : LocalSession)
    (clock : Int → String)
    (r : SessionNodeCache) :
    UniqueIds [.add redis s clock, .addRemoteSession r] := by
  intro redis₁ s₁ clock₁ redis₂ s₂ clock₂ hMem₁ hMem₂ _
  simp only [List.mem_cons, HandleCall.add.injEq,
    reduceCtorEq, List.not_mem_nil, or_false] at hMem₁ hMem₂
  rw [hMem₁.2.1, hMem₂.2.1]

/- A node that is told of another session than its own. -/
theorem localsKept_otherSession :
    LocalsKept (Node.new {} : Node Unit)
        [.add Redis.empty ⟨⟨1, true⟩, some "u", "a"⟩
            (fun _ => "0"),
          .addRemoteSession ⟨some "u", "b", {}⟩] ∧
      NoticesKeepHandles (Node.new {} : Node Unit)
        [.add Redis.empty ⟨⟨1, true⟩, some "u", "a"⟩
            (fun _ => "0"),
          .addRemoteSession ⟨some "u", "b", {}⟩] := by
  apply (localsKept_iff _ _
    (uniqueIds_oneLogin _ _ _ _)).mpr
  intro before r after hCalls session hLookup
  rcases before with _ | ⟨call, _ | ⟨call', before⟩⟩
  · simp at hCalls
  · simp only [List.cons_append, List.nil_append,
      List.cons.injEq, HandleCall.addRemoteSession.injEq]
      at hCalls
    rcases hCalls with ⟨rfl, rfl, -⟩
    cases hLookup
  · simp at hCalls

/- A notice takes the handle of the node's own session. -/
theorem ownSession_displaced :
    ¬ ∀ (node : Node Unit) (calls : List HandleCall),
      UniqueIds calls →
      LocalsKept node calls ∧
        NoticesKeepHandles node calls := by
  intro hAll
  have hUnique := uniqueIds_oneLogin Redis.empty
    ⟨⟨1, true⟩, some "u", "a"⟩ (fun _ => "0")
    ⟨some "u", "a", {}⟩
  have hKept := (hAll (Node.new {}) _ hUnique).1
    [] _ _ _ _ List.prefix_rfl (by simp)
  have hLookup :
      (HandleCall.run (Node.new {} : Node Unit)
        [.add Redis.empty ⟨⟨1, true⟩, some "u", "a"⟩
            (fun _ => "0"),
          .addRemoteSession
            ⟨some "u", "a", {}⟩]).sessionMap.lookup "a" =
        some (.remoteSession ⟨⟨some "u", "a", {}⟩⟩) := by
    decide
  have hSame := hLookup.symm.trans hKept
  simp at hSame

end NettyCluster
