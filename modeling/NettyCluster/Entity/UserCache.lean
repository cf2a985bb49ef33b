import Mathlib.Data.List.Nodup
import NettyCluster.Lib.Json

/-
  The records kept about nodes, sessions and users, and
  their JSON form.

  A user's record lists the sessions of the user in the
  order in which they were added, at most one for each
  session id.

  Main declarations:
    * `WsNode`
    * `SessionNodeCache`
    * `UserCache`
    * `UserCache.addSession`, `UserCache.removeSession`
    * `UserCache.fromJson_toJson`
-/

------------------------------------------------------------
-- JSON Members
------------------------------------------------------------

namespace NettyCluster

/- The member of a value, left out when it is null. -/
def nullable
    (key : String)
    (value : Option String) : List (String × Json) :=
  (value.map fun s => (key, Json.str s)).toList

/- A string member; absent ones are null. -/
def getString
    (j : Json)
    (key : String) : Option (Option String) :=
  match j.get? key with
  | none => some none
  | some .null => some none
  | some (.str s) => some (some s)
  | some _ => none

/- A number member; absent ones keep the initial value. -/
def getNum
    (j : Json)
    (key : String)
    (initial : Int) : Option Int :=
  match j.get? key with
  | none => some initial
  | some .null => some initial
  | some (.num n) => some n
  | some _ => none

/- A number member of 32 bits; larger ones are errors. -/
def getInteger
    (j : Json)
    (key : String)
    (initial : Int32) : Option Int32 := do
  let n ← getNum j key initial.toInt
  if (Int32.ofInt n).toInt = n then
    some (Int32.ofInt n)
  else none

@[simp] theorem getInteger_num
    {j : Json}
    {key : String}
    {n : Int32}
    (initial : Int32)
    (hGet : j.get? key = some (.num n.toInt)) :
    getInteger j key initial = some n := by
  simp [getInteger, getNum, hGet]

------------------------------------------------------------
-- Nodes and Sessions
------------------------------------------------------------

/-
  A node: the id it got when it registered, its load, and
  the address it listens on.
-/
structure WsNode where
  id : Int := 0
  balance : Int32 := 0
  host : String := "127.0.0.1"
  port : Int32 := 8080
deriving DecidableEq, Repr

namespace WsNode

def toJson (n : WsNode) : Json :=
  .obj
    [("id", .num n.id), ("balance", .num n.balance.toInt),
      ("host", .str n.host), ("port", .num n.port.toInt)]

def fromJson : Json → Option WsNode
| .obj fields => do
    let id ← getNum (.obj fields) "id" 0
    let balance ← getInteger (.obj fields) "balance" 0
    let host ← getString (.obj fields) "host"
    let port ← getInteger (.obj fields) "port" 8080
    some ⟨id, balance, host.getD "127.0.0.1", port⟩
| _ => none

@[simp] theorem fromJson_toJson (n : WsNode) :
    fromJson n.toJson = some n := by
  have hBalance :
      getInteger n.toJson "balance" 0 = some n.balance :=
    getInteger_num 0 rfl
  have hPort :
      getInteger n.toJson "port" 8080 = some n.port :=
    getInteger_num 8080 rfl
  rw [toJson] at hBalance hPort
  rw [toJson, fromJson, hBalance, hPort]
  rfl

/-
  One more session on the node. The counter wraps at 32
  bits.
-/
def incrementBalance (n : WsNode) : WsNode :=
  { n with balance := n.balance + 1 }

/- One session less on the node. -/
def decrementBalance (n : WsNode) : WsNode :=
  { n with balance := n.balance - 1 }

end WsNode

/- A session: its user, its id and the node it is on. -/
structure SessionNodeCache where
  userid : Option String
  sessionid : String
  wsNode : WsNode
deriving DecidableEq, Repr

namespace SessionNodeCache

def toJson (s : SessionNodeCache) : Json :=
  .obj (nullable "userid" s.userid ++
    [("sessionid", .str s.sessionid),
      ("wsNode", s.wsNode.toJson)])

def fromJson : Json → Option SessionNodeCache
| .obj fields => do
    let userid ← getString (.obj fields) "userid"
    let sessionid ← getString (.obj fields) "sessionid"
    let wsNode ← (Json.obj fields).get? "wsNode"
    some ⟨userid, ← sessionid, ← WsNode.fromJson wsNode⟩
| _ => none

@[simp] theorem fromJson_toJson (s : SessionNodeCache) :
    fromJson s.toJson = some s := by
  rcases s with ⟨_ | userid, sessionid, wsNode⟩ <;>
    simp [toJson, fromJson, getString, nullable, Json.get?,
      List.lookup_cons]

end SessionNodeCache

end NettyCluster

------------------------------------------------------------
-- Users
------------------------------------------------------------

namespace NettyCluster

/- The session ids of a list of records. -/
def sids (records : List SessionNodeCache) : List String :=
  records.map SessionNodeCache.sessionid

/- A user's record: the sessions, at most one for an id. -/
structure UserCache where
  userId : Option String
  map : List SessionNodeCache
  nodup : (sids map).Nodup
deriving DecidableEq

/- Replace the record with the same id, or add it last. -/
def put :
    List SessionNodeCache →
      SessionNodeCache → List SessionNodeCache
| [], s => [s]
| r :: records, s =>
    if r.sessionid = s.sessionid then
      s :: records
    else
      r :: put records s

theorem mem_put
    (records : List SessionNodeCache)
    (hNodup : (sids records).Nodup)
    (s r : SessionNodeCache) :
    r ∈ put records s ↔
      r = s ∨ (r ∈ records ∧ r.sessionid ≠ s.sessionid) := by
  induction records with
  | nil => simp [put]
  | cons r' records ih =>
      rw [sids, List.map_cons, List.nodup_cons] at hNodup
      have hTail := ih hNodup.2
      by_cases hSame : r'.sessionid = s.sessionid
      · have hOther :
            ∀ r ∈ records, r.sessionid ≠ s.sessionid := by
          intro r hMem hEq
          apply hNodup.1
          rw [hSame, ← hEq]
          exact List.mem_map_of_mem hMem
        rw [put, if_pos hSame, List.mem_cons]
        constructor
        · rintro (hEq | hMem)
          · exact Or.inl hEq
          · exact Or.inr
              ⟨List.mem_cons_of_mem r' hMem, hOther r hMem⟩
        · rintro (hEq | ⟨hMem, hNe⟩)
          · exact Or.inl hEq
          · rcases List.mem_cons.mp hMem with rfl | hRest
            · exact absurd hSame hNe
            · exact Or.inr hRest
      · rw [put, if_neg hSame, List.mem_cons, hTail,
          List.mem_cons]
        constructor
        · rintro (rfl | hEq | ⟨hMem, hNe⟩)
          · exact Or.inr ⟨Or.inl rfl, hSame⟩
          · exact Or.inl hEq
          · exact Or.inr ⟨Or.inr hMem, hNe⟩
        · rintro (hEq | ⟨rfl | hMem, hNe⟩)
          · exact Or.inr (Or.inl hEq)
          · exact Or.inl rfl
          · exact Or.inr (Or.inr ⟨hMem, hNe⟩)

theorem mem_sids_put
    (records : List SessionNodeCache)
    (s : SessionNodeCache)
    (sid : String) :
    sid ∈ sids (put records s) ↔
      sid = s.sessionid ∨ sid ∈ sids records := by
  induction records with
  | nil => simp [put, sids]
  | cons r records ih =>
      by_cases hSame : r.sessionid = s.sessionid
      · simp [put, hSame, sids]
      · simp only [sids, put, if_neg hSame, List.map_cons,
          List.mem_cons] at ih ⊢
        rw [ih]
        constructor <;> rintro (h | h | h) <;> simp [h]

theorem nodup_put
    (records : List SessionNodeCache)
    (s : SessionNodeCache)
    (hNodup : (sids records).Nodup) :
    (sids (put records s)).Nodup := by
  induction records with
  | nil => simp [put, sids]
  | cons r records ih =>
      by_cases hSame : r.sessionid = s.sessionid
      · rw [put, if_pos hSame]
        simpa [sids, hSame] using hNodup
      · rw [put, if_neg hSame, sids, List.map_cons,
          List.nodup_cons]
        rw [sids, List.map_cons, List.nodup_cons] at hNodup
        refine ⟨?_, ih hNodup.2⟩
        have hNotMem :
            r.sessionid ∉ sids (put records s) := by
          rw [mem_sids_put]
          rintro (hEq | hMem)
          · exact hSame hEq
          · exact hNodup.1 hMem
        exact hNotMem

namespace UserCache

/- A record without sessions. -/
def new (userId : Option String) : UserCache :=
  ⟨userId, [], List.nodup_nil⟩

/- Add a session to the user. -/
def addSession
    (u : UserCache)
    (session : SessionNodeCache) : UserCache :=
  ⟨u.userId, put u.map session,
    nodup_put u.map session u.nodup⟩

/- Remove a session from the user. -/
def removeSession
    (u : UserCache)
    (sessionId : String) : UserCache :=
  ⟨u.userId,
    u.map.filter fun r => r.sessionid ≠ sessionId,
    u.nodup.sublist
      ((List.filter_sublist).map
        SessionNodeCache.sessionid)⟩

@[simp] theorem mem_new
    (userId : Option String)
    (r : SessionNodeCache) :
    r ∈ (new userId).map ↔ False := by
  simp [new]

@[simp] theorem mem_addSession
    (u : UserCache)
    (s r : SessionNodeCache) :
    r ∈ (u.addSession s).map ↔
      r = s ∨ (r ∈ u.map ∧ r.sessionid ≠ s.sessionid) :=
  mem_put u.map u.nodup s r

@[simp] theorem mem_removeSession
    (u : UserCache)
    (sid : String)
    (r : SessionNodeCache) :
    r ∈ (u.removeSession sid).map ↔
      r ∈ u.map ∧ r.sessionid ≠ sid := by
  simp [removeSession]

/- Two records of one session are the same. -/
theorem eq_of_sessionid
    (u : UserCache)
    {r r' : SessionNodeCache}
    (hMem : r ∈ u.map)
    (hMem' : r' ∈ u.map)
    (hSame : r.sessionid = r'.sessionid) :
    r = r' :=
  List.inj_on_of_nodup_map u.nodup hMem hMem' hSame

def toJson (u : UserCache) : Json :=
  .obj (nullable "userId" u.userId ++
    [("map", .obj (u.map.map fun r =>
      (r.sessionid, r.toJson)))])

/- A list of records is read if no id comes twice. -/
def ofRecords
    (userId : Option String)
    (records : List SessionNodeCache) : Option UserCache :=
  if hNodup : (sids records).Nodup then
    some ⟨userId, records, hNodup⟩
  else none

/- The records that are the members of an object. -/
def recordsFromJson :
    List (String × Json) → Option (List SessionNodeCache)
| [] => some []
| (_, j) :: members => do
    let r ← SessionNodeCache.fromJson j
    let records ← recordsFromJson members
    some (r :: records)

def fromJson : Json → Option UserCache
| .obj fields => do
    let userId ← getString (.obj fields) "userId"
    match ← (Json.obj fields).get? "map" with
    | .obj members =>
        ofRecords userId (← recordsFromJson members)
    | _ => none
| _ => none

theorem recordsFromJson_map
    (records : List SessionNodeCache) :
    recordsFromJson
        (records.map fun r => (r.sessionid, r.toJson)) =
      some records := by
  induction records with
  | nil => rfl
  | cons r records ih =>
      simp only [List.map_cons, recordsFromJson, ih,
        SessionNodeCache.fromJson_toJson]
      rfl

/- A user's record comes back from its JSON. -/
@[simp] theorem fromJson_toJson (u : UserCache) :
    fromJson u.toJson = some u := by
  rcases u with ⟨userId, records, hNodup⟩
  have hRecords := recordsFromJson_map records
  have hMap :
      (Json.obj (nullable "userId" userId ++
        [("map", .obj (records.map fun r =>
          (r.sessionid, r.toJson)))])).get? "map" =
        some (.obj (records.map fun r =>
          (r.sessionid, r.toJson))) := by
    cases userId <;> rfl
  have hUser :
      getString (Json.obj (nullable "userId" userId ++
        [("map", .obj (records.map fun r =>
          (r.sessionid, r.toJson)))])) "userId" =
        some userId := by
    cases userId <;> rfl
  simp [toJson, fromJson, hMap, hUser, hRecords, ofRecords,
    hNodup]

end UserCache

end NettyCluster
