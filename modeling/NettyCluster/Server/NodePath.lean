import NettyCluster.Lib.Occurrence
import NettyCluster.Server.StartUp

/-
  Ids of nodes and the paths they are read from.

  The registry ends the path of a child with a number of 32
  bits, padded with zeros to ten characters. A node reads
  its own id from the path it was told, and its peers read
  it from the paths of events, each in its own namespace.

  Main declarations:
    * `ZooKeeper.format`, `ZooKeeper.seqPath`
    * `NettyWorker.getIdByPath_seqPath`
    * `StartUp.Named`
-/

------------------------------------------------------------
-- The Numbers of Children
------------------------------------------------------------

namespace NettyCluster

namespace ZooKeeper

/-
  A number in decimal, filled up with zeros to ten
  characters. A sign stands before the zeros and is one of
  the characters.
-/
def format (n : Int32) : String :=
  String.ofList <|
    match n.toInt with
    | .ofNat m => (Nat.toDigits 10 m).leftpad 10 '0'
    | .negSucc m =>
        '-' :: (Nat.toDigits 10 (m + 1)).leftpad 9 '0'

/-
  The path of a child with a number, under a prefix: what a
  namespace puts before the path that was asked for.
-/
def seqPath
    (p : String)
    (n : Int32) : String :=
  p ++ ZKConstants.Temporary_NODE_PATH ++ format n

example : format (-7) = "-000000007" := by decide

end ZooKeeper

/- A number that is filled up has nothing but digits. -/
theorem isDigit_of_mem_leftpad
    {width m : Nat}
    {c : Char}
    (hMem : c ∈ (Nat.toDigits 10 m).leftpad width '0') :
    c.isDigit := by
  rw [List.leftpad, List.mem_append] at hMem
  rcases hMem with hZero | hDigit
  · rw [List.eq_of_mem_replicate hZero]
    decide
  · exact Nat.isDigit_of_mem_toDigits (by omega)
      (by omega) hDigit

/- Zeros in front do not change what is read. -/
theorem parseDigits_leftpad
    (width m : Nat) :
    parseDigits ((Nat.toDigits 10 m).leftpad width '0') =
      some m := by
  have hNe :
      (Nat.toDigits 10 m).leftpad width '0' ≠ [] := by
    intro hNil
    rw [List.leftpad, List.append_eq_nil_iff] at hNil
    exact Nat.toDigits_ne_nil hNil.2
  have hDigits :
      ((Nat.toDigits 10 m).leftpad width '0').all
        Char.isDigit :=
    List.all_eq_true.mpr fun _ => isDigit_of_mem_leftpad
  rw [parseDigits, if_pos ⟨hNe, hDigits⟩, List.leftpad,
    Nat.ofDigitChars_append, Nat.ofDigitChars_replicate_zero,
    Nat.mul_zero, Nat.ofDigitChars_ten_toDigits]

/- Digits have no sign in front. -/
theorem parseLong_of_isDigit
    {cs : List Char}
    (hDigits : ∀ c ∈ cs, c.isDigit) :
    parseLong cs = (parseDigits cs).bind fun n => toLong n := by
  rw [parseLong.eq_def]
  split
  case h_1 =>
    have hMinus := hDigits '-' List.mem_cons_self
    contradiction
  case h_2 =>
    have hPlus := hDigits '+' List.mem_cons_self
    contradiction
  case h_3 => rfl

/- A number of 32 bits fits into 64. -/
theorem toLong_toInt
    (n : Int32) :
    toLong n.toInt = some n.toInt := by
  have hLower := n.le_toInt
  have hUpper := n.toInt_lt
  exact if_pos (by omega)

namespace ZooKeeper

/- The number that is written is the one that is read. -/
theorem parseLong_format
    (n : Int32) :
    parseLong (format n).toList = some n.toInt := by
  have hLong := toLong_toInt n
  rw [format, String.toList_ofList]
  cases hInt : n.toInt with
  | ofNat m =>
      rw [hInt, Int.ofNat_eq_natCast] at hLong
      rw [parseLong_of_isDigit
        fun _ => isDigit_of_mem_leftpad,
        parseDigits_leftpad, Option.bind_some]
      exact hLong
  | negSucc m =>
      have hNeg : -((m + 1 : Nat) : Int) = Int.negSucc m := rfl
      rw [hInt, ← hNeg] at hLong
      rw [parseLong, parseDigits_leftpad, ← hNeg,
        Option.bind_eq_bind, Option.bind_some]
      exact hLong

/- No part of a number is taken for the end of a parent. -/
theorem not_mem_format
    (n : Int32) :
    '/' ∉ (format n).toList := by
  rw [format, String.toList_ofList]
  intro hMem
  cases hInt : n.toInt with
  | ofNat m =>
      rw [hInt] at hMem
      have hDigit := isDigit_of_mem_leftpad hMem
      contradiction
  | negSucc m =>
      rw [hInt] at hMem
      rcases List.mem_cons.mp hMem with hMinus | hRest
      · contradiction
      · have hDigit := isDigit_of_mem_leftpad hRest
        contradiction

end ZooKeeper

end NettyCluster

------------------------------------------------------------
-- The Last Occurrence
------------------------------------------------------------

namespace NettyCluster

open Occurrence

variable {pattern text : List Char}
variable {i : Nat}

/- What the search finds is the last occurrence. -/
theorem lastIndexOf_spec
    (hNe : pattern ≠ [])
    (text : List Char) :
    (lastIndexOf pattern text = none →
        ∀ i, ¬ OccursAt pattern text i) ∧
      ∀ i, lastIndexOf pattern text = some i →
        LastOccurrence pattern text i := by
  induction text with
  | nil =>
      rw [lastIndexOf, if_neg hNe]
      refine ⟨fun _ i hOccurs => hNe ?_, by simp⟩
      rw [OccursAt, List.drop_nil] at hOccurs
      exact List.prefix_nil.mp hOccurs
  | cons c cs ih =>
      rcases ih with ⟨ihNone, ihSome⟩
      rw [lastIndexOf]
      cases hRec : lastIndexOf pattern cs with
      | some k =>
          have hLast := ihSome k hRec
          refine ⟨by simp, ?_⟩
          intro i hFound
          obtain rfl := Option.some.inj hFound
          constructor
          case occurs =>
            exact (occursAt_cons_succ c).mpr hLast.occurs
          case last =>
            intro j hOccurs
            cases j with
            | zero => exact Nat.zero_le _
            | succ j =>
                rw [occursAt_cons_succ] at hOccurs
                exact Nat.succ_le_succ (hLast.last j hOccurs)
      | none =>
          have hLater :
              ∀ i, ¬ OccursAt pattern (c :: cs) (i + 1) := by
            intro i hOccurs
            rw [occursAt_cons_succ] at hOccurs
            exact ihNone hRec i hOccurs
          dsimp only
          by_cases hHere : pattern <+: c :: cs
          · rw [if_pos (List.isPrefixOf_iff_prefix.mpr hHere)]
            refine ⟨by simp, ?_⟩
            intro i hFound
            obtain rfl := Option.some.inj hFound
            refine ⟨occursAt_zero.mpr hHere, ?_⟩
            intro j hOccurs
            cases j with
            | zero => exact le_rfl
            | succ j => exact absurd hOccurs (hLater j)
          · rw [if_neg
              (hHere ∘ List.isPrefixOf_iff_prefix.mp)]
            refine ⟨?_, by simp⟩
            intro _ i hOccurs
            cases i with
            | zero => exact hHere (occursAt_zero.mp hOccurs)
            | succ i => exact hLater i hOccurs

/- The last occurrence is found. -/
theorem lastIndexOf_of_lastOccurrence
    (hNe : pattern ≠ [])
    (hLast : LastOccurrence pattern text i) :
    lastIndexOf pattern text = some i := by
  rcases lastIndexOf_spec hNe text with ⟨hNone, hSome⟩
  cases hFound : lastIndexOf pattern text with
  | none => exact absurd hLast.occurs (hNone hFound i)
  | some j => rw [(hSome j hFound).unique hLast]

/-
  The part of the path that stands before the number begins
  with the end of a parent and nowhere repeats itself.
-/
theorem ZKConstants.unbordered :
    Unbordered Temporary_NODE_PATH.toList := by
  decide

/- The number at the end of the path of a child is read. -/
theorem NettyWorker.getIdByPath_of_seqPath
    (p : String)
    (n : Int32) :
    getIdByPath (some (ZooKeeper.seqPath p n)) =
      .ok n.toInt := by
  have hPath :
      (ZooKeeper.seqPath p n).toList =
        p.toList ++
          (ZKConstants.Temporary_NODE_PATH.toList ++
            (ZooKeeper.format n).toList) := by
    rw [ZooKeeper.seqPath, String.toList_append,
      String.toList_append, List.append_assoc]
  have hLast :
      lastIndexOf ZKConstants.Temporary_NODE_PATH.toList
          (ZooKeeper.seqPath p n).toList =
        some p.toList.length := by
    rw [hPath]
    exact lastIndexOf_of_lastOccurrence (by decide)
      (ZKConstants.unbordered.lastOccurrence
        (ZooKeeper.not_mem_format n) p.toList)
  have hRest :
      (ZooKeeper.seqPath p n).toList.drop
          (p.toList.length +
            ZKConstants.Temporary_NODE_PATH.toList.length) =
        (ZooKeeper.format n).toList := by
    rw [hPath, ← List.append_assoc, ← List.length_append,
      List.drop_left]
  have hWithin :
      p.toList.length +
          ZKConstants.Temporary_NODE_PATH.toList.length ≤
        (ZooKeeper.seqPath p n).toList.length := by
    rw [hPath, List.length_append, List.length_append]
    omega
  simp only [getIdByPath, hLast, if_pos hWithin, hRest,
    ZooKeeper.parseLong_format]

end NettyCluster

------------------------------------------------------------
-- Own and Foreign Ids
------------------------------------------------------------

namespace NettyCluster

variable {ι : Type}

/- The id of a node that is read is the one of its path. -/
theorem NodeRouter.readNode_id
    {router : NodeRouter ι}
    {data : ChildData}
    {node : WsNode}
    {id : Int}
    (hPath : NettyWorker.getIdByPath (some data.path) = .ok id)
    (hRead : (router.readNode data).2 = .ok node) :
    node.id = id := by
  rw [readNode, hPath] at hRead
  dsimp only at hRead
  cases hData : JsonUtil.jsonBytes2Object data.data with
  | none => simp [hData] at hRead
  | some n =>
      simp only [hData, Except.ok.injEq] at hRead
      rw [← hRead]

namespace StartUp

variable {host : String}
variable {port : Int32}
variable {st st' : StartUp ι}

/-
  The path that is remembered is that of the child, and the
  id is read from it.
-/
structure Named (st : StartUp ι) : Prop where
  pathRegistered :
    6 ≤ st.pc.rank → st.pathRegistered = st.znode
  id :
    7 ≤ st.pc.rank →
      NettyWorker.getIdByPath st.znode =
        .ok st.site.node.wsNode.id

/-
  A node that is identified has the number of its child as
  its id, and peers read the same from the events of the
  child, whatever stands in front of either path.
-/
def SharesId (st : StartUp ι) : Prop :=
  ∀ p n, st.znode = some (ZooKeeper.seqPath p n) →
    7 ≤ st.pc.rank →
      st.site.node.wsNode.id = n.toInt ∧
        ∀ p' (router : NodeRouter ι) data node,
          data.path = ZooKeeper.seqPath p' n →
            (router.readNode data).2 = .ok node →
              node.id = st.site.node.wsNode.id

/- A login leaves the start and the id as they are. -/
theorem addStep_start
    (s : LocalSession)
    (st : StartUp ι)
    (pc : AddPc) :
    (addStep s st pc).1.pc = st.pc ∧
      (addStep s st pc).1.znode = st.znode ∧
      (addStep s st pc).1.pathRegistered =
        st.pathRegistered ∧
      (addStep s st pc).1.site.node.wsNode.id =
        st.site.node.wsNode.id := by
  cases pc <;> exact ⟨rfl, rfl, rfl, rfl⟩

/- Steps keep the invariant. -/
theorem Named.step
    (hNamed : Named st)
    (hStep : AnyStep host port st st') :
    Named st' := by
  rcases hStep with ⟨event, hStep⟩
  cases hStep with
  | assign => exact ⟨fun _ => rfl, by simp [StartPc.rank]⟩
  | @setId id hPc hNumber =>
      have hPath : st.pathRegistered = st.znode :=
        hNamed.pathRegistered (by simp [hPc, StartPc.rank])
      rw [hPath] at hNumber
      exact ⟨fun _ => hPath, fun _ => hNumber⟩
  | startRouter hPc =>
      have hLate : 7 ≤ st.pc.rank := by
        simp [hPc, StartPc.rank]
      exact ⟨fun _ => hNamed.pathRegistered (by omega),
        fun _ => hNamed.id hLate⟩
  | login =>
      exact ⟨hNamed.pathRegistered, hNamed.id⟩
  | @add k task =>
      rcases addStep_start task.session st task.pc with
        ⟨hPc, hZnode, hPath, hId⟩
      constructor
      case pathRegistered =>
        dsimp only
        rw [hPc, hZnode, hPath]
        exact hNamed.pathRegistered
      case id =>
        dsimp only
        rw [hPc, hZnode, hId]
        exact hNamed.id
  | _ =>
      constructor <;> simp [StartPc.rank, setWsNode]

/- A node that is named shares its id with its peers. -/
theorem Named.sharesId
    (hNamed : Named st) :
    SharesId st := by
  intro p n hZnode hLate
  have hOwn := hNamed.id hLate
  rw [hZnode, NettyWorker.getIdByPath_of_seqPath] at hOwn
  have hId := Except.ok.inj hOwn
  refine ⟨hId.symm, ?_⟩
  intro p' router data node hPath hRead
  rw [← hId]
  apply NodeRouter.readNode_id _ hRead
  rw [hPath, NettyWorker.getIdByPath_of_seqPath]

end StartUp

/-
  Ids that are read from paths are faithful: the number of
  the child is read, a node and its peers read the same, and
  different children have different ids.
-/
theorem NettyWorker.ids_faithful
    (host : String)
    (port : Int32) :
    (∀ p n,
        getIdByPath (some (ZooKeeper.seqPath p n)) =
          .ok n.toInt) ∧
      (∀ st : StartUp ι,
        Transition.Reach StartUp.Start
            (StartUp.AnyStep host port) st →
          st.SharesId) ∧
      (∀ p p' n n', n ≠ n' →
        getIdByPath (some (ZooKeeper.seqPath p n)) ≠
          getIdByPath (some (ZooKeeper.seqPath p' n'))) := by
  refine ⟨getIdByPath_of_seqPath, ?_, ?_⟩
  · intro st hReach
    have hNamed : st.Named := by
      refine hReach.invariant ?_
        fun _ _ hNamed hStep => hNamed.step hStep
      intro st hStart
      constructor <;> simp [hStart.pc, StartPc.rank]
    exact hNamed.sharesId
  · intro p p' n n' hNe hSame
    rw [getIdByPath_of_seqPath, getIdByPath_of_seqPath]
      at hSame
    exact hNe (Int32.toInt_inj.mp (Except.ok.inj hSame))

end NettyCluster
