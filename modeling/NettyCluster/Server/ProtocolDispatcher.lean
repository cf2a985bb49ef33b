import NettyCluster.Codec.ProtoCodec

/-
  Telling clients from nodes by the first bytes of a
  connection.

  The dispatcher reads the first three bytes of the memory
  of its buffer, received or not, and installs the pipeline
  for clients or for nodes once. What it hands to the first
  handler it installed is kept.

  Main declarations:
    * `ProtocolDispatcher.ByteBuf`
    * `ProtocolDispatcher.decode`
    * `ProtocolDispatcher.channelRead`
    * `ProtocolDispatcher.detected_iff`
    * `ProtocolDispatcher.offered_iff`
-/

------------------------------------------------------------
-- Buffers
------------------------------------------------------------

namespace NettyCluster

namespace ProtocolDispatcher

open MessageInfo

/-
  A buffer: its memory up to the capacity, whatever it
  holds, and the part of it that is still to be read.
-/
structure ByteBuf where
  memory : List UInt8
  readerIndex : Nat
  writerIndex : Nat
  reader_le : readerIndex ≤ writerIndex
  writer_le : writerIndex ≤ memory.length

namespace ByteBuf

/- Bytes received into a memory with other content. -/
def received (bytes stale : List UInt8) : ByteBuf where
  memory := bytes ++ stale
  readerIndex := 0
  writerIndex := bytes.length
  reader_le := Nat.zero_le _
  writer_le := by simp

/- The bytes between the two indices. -/
def readable (o : ByteBuf) : List UInt8 :=
  (o.memory.take o.writerIndex).drop o.readerIndex

/- Read some bytes, as far as there are any. -/
def readBytes
    (o : ByteBuf)
    (length : Nat) : ByteBuf where
  memory := o.memory
  readerIndex := min (o.readerIndex + length) o.writerIndex
  writerIndex := o.writerIndex
  reader_le := Nat.min_le_right _ _
  writer_le := o.writer_le

/-
  The text of a range of the memory, bounded by the capacity
  and not by the bytes received. Outside it the call throws;
  a text with replaced characters is kept as none.
-/
def toText
    (o : ByteBuf)
    (index length : Nat) : Option (Option String) :=
  if index + length ≤ o.memory.length then
    some (ofUtf8 ((o.memory.drop index).take length))
  else
    none

@[simp] theorem readable_received
    (bytes stale : List UInt8) :
    (received bytes stale).readable = bytes := by
  simp [received, readable]

theorem readable_readBytes
    (o : ByteBuf)
    (length : Nat) :
    (o.readBytes length).readable =
      o.readable.drop length := by
  have hReader := o.reader_le
  have hWriter := o.writer_le
  rcases Nat.le_total (o.readerIndex + length)
      o.writerIndex with hLess | hMore
  · simp only [readBytes, readable, Nat.min_eq_left hLess,
      List.drop_drop]
  · simp only [readBytes, readable, Nat.min_eq_right hMore,
      List.drop_drop]
    rw [List.drop_eq_nil_of_le (by simp),
      List.drop_eq_nil_of_le (by simp; omega)]

end ByteBuf

end ProtocolDispatcher

end NettyCluster

------------------------------------------------------------
-- Dispatching
------------------------------------------------------------

namespace NettyCluster

namespace ProtocolDispatcher

open MessageInfo

/- The pipelines a dispatcher can install. -/
inductive Pipeline where
| http
| message
deriving DecidableEq, Repr

/- Whether the memory starts like an HTTP request. -/
def isHttp (o : ByteBuf) : Option Bool :=
  (o.toText 0 3).map fun s => decide (s = some "GET")

/- The pipeline to install; none when the call throws. -/
def decode (o : ByteBuf) : Option Pipeline :=
  (isHttp o).map fun http =>
    if http then .http else .message

/-
  A server connection: the bytes the dispatcher has not
  passed on, the pipeline it installed, what that pipeline's
  first handler was given, and how often decoding threw.
-/
structure Connection where
  cumulation : List UInt8 := []
  installed : Option Pipeline := none
  offered : List (List UInt8) := []
  thrown : Nat := 0
deriving DecidableEq, Repr

/-
  A decoder that was removed hands on what can still be read
  from its buffer.
-/
def handlerRemoved (o : ByteBuf) : List (List UInt8) :=
  if o.readable = [] then [] else [o.readable]

/-
  The client pipeline is given the buffer itself, of which
  its first handler reads some bytes, before the removal.
-/
def dispatchToHttp
    (o : ByteBuf)
    (taken : Nat) : List (List UInt8) :=
  o.readable :: handlerRemoved (o.readBytes taken)

/- The node pipeline is given what the removal hands on. -/
def dispatchToMessage
    (o : ByteBuf) : List (List UInt8) :=
  handlerRemoved o

/-
  Bytes arrive, in a memory that holds other bytes after
  them. Once a pipeline is installed they go past the
  dispatcher.
-/
def channelRead
    (taken : Nat)
    (c : Connection)
    (read : List UInt8 × List UInt8) : Connection :=
  match c.installed with
  | some _ => { c with offered := c.offered ++ [read.1] }
  | none =>
      let bytes := c.cumulation ++ read.1
      let o := ByteBuf.received bytes read.2
      match decode o with
      | none =>
          { c with
            cumulation := bytes
            thrown := c.thrown + 1 }
      | some .http =>
          { c with
            cumulation := []
            installed := some .http
            offered := dispatchToHttp o taken }
      | some .message =>
          { c with
            cumulation := []
            installed := some .message
            offered := dispatchToMessage o }

/- Several reads, one after the other. -/
def feed
    (taken : Nat)
    (c : Connection)
    (reads : List (List UInt8 × List UInt8)) :
    Connection :=
  reads.foldl (channelRead taken) c

/- The first three bytes of an HTTP request. -/
def GET : List UInt8 :=
  [0x47, 0x45, 0x54]

/- The pipeline a stream of bytes belongs to. -/
def pipelineOf (stream : List UInt8) : Pipeline :=
  if stream.take 3 = GET then .http else .message

end ProtocolDispatcher

end NettyCluster

------------------------------------------------------------
-- Detection
------------------------------------------------------------

namespace NettyCluster

namespace ProtocolDispatcher

open MessageInfo

theorem isHttp_received
    (bytes stale : List UInt8) :
    isHttp (ByteBuf.received bytes stale) =
      if 3 ≤ (bytes ++ stale).length then
        some (decide ((bytes ++ stale).take 3 = GET))
      else
        none := by
  have hGet : toUtf8 "GET" = GET := by decide
  simp only [isHttp, ByteBuf.toText, ByteBuf.received,
    Nat.zero_add, List.drop_zero]
  by_cases hLong : 3 ≤ (bytes ++ stale).length
  · rw [if_pos hLong, if_pos hLong, Option.map_some]
    simp only [ofUtf8_eq_some_iff, hGet]
  · rw [if_neg hLong, if_neg hLong, Option.map_none]

/- The decision is the one for the whole memory. -/
theorem decode_received
    (bytes stale : List UInt8) :
    decode (ByteBuf.received bytes stale) =
      if 3 ≤ (bytes ++ stale).length then
        some (pipelineOf (bytes ++ stale))
      else
        none := by
  rw [decode, isHttp_received]
  by_cases hLong : 3 ≤ (bytes ++ stale).length
  · rw [if_pos hLong, if_pos hLong, Option.map_some]
    simp only [pipelineOf, decide_eq_true_eq]
  · rw [if_neg hLong, if_neg hLong, Option.map_none]

/- Three bytes decide for every stream they start. -/
theorem pipelineOf_append
    {bytes : List UInt8}
    (hLong : 3 ≤ bytes.length)
    (more : List UInt8) :
    pipelineOf (bytes ++ more) = pipelineOf bytes := by
  rw [pipelineOf, List.take_append_of_le_length hLong,
    pipelineOf]

section Reads

variable {taken : Nat}
variable {c : Connection}

variable (taken c) in
/- A read that a dispatcher without a pipeline handles. -/
theorem channelRead_undecided
    (hNone : c.installed = none)
    (chunk stale : List UInt8) :
    (channelRead taken c (chunk, stale)).installed =
      if 3 ≤ (c.cumulation ++ chunk ++ stale).length then
        some (pipelineOf (c.cumulation ++ chunk ++ stale))
      else
        none := by
  simp only [channelRead, hNone, decode_received]
  by_cases hLong :
      3 ≤ (c.cumulation ++ chunk ++ stale).length
  · rw [if_pos hLong]
    cases pipelineOf (c.cumulation ++ chunk ++ stale) <;> rfl
  · rw [if_neg hLong]

variable (taken) in
/- Bytes that do not decide are kept. -/
theorem channelRead_kept
    (hNone : c.installed = none)
    {chunk stale : List UInt8}
    (hShort :
      ¬ 3 ≤ (c.cumulation ++ chunk ++ stale).length) :
    (channelRead taken c (chunk, stale)).cumulation =
      c.cumulation ++ chunk := by
  simp only [channelRead, hNone, decode_received,
    if_neg hShort]

/- The pipeline is installed once, and given all the rest. -/
theorem feed_installed
    {pipeline : Pipeline}
    (hSome : c.installed = some pipeline)
    (reads : List (List UInt8 × List UInt8)) :
    feed taken c reads =
      { c with
        offered := c.offered ++ reads.map Prod.fst } := by
  induction reads generalizing c with
  | nil => simp [feed]
  | cons read reads ih =>
      have hNext :
          channelRead taken c read =
            { c with offered := c.offered ++ [read.1] } := by
        simp only [channelRead, hSome]
      change feed taken (channelRead taken c read) reads = _
      rw [hNext, ih (c := { c with
        offered := c.offered ++ [read.1] }) hSome]
      simp

variable (taken) in
/- The memory decides as soon as it has three bytes. -/
theorem feed_decided
    {first stale : List UInt8}
    (hMemory : 3 ≤ (first ++ stale).length)
    (reads : List (List UInt8 × List UInt8)) :
    (feed taken {} ((first, stale) :: reads)).installed =
      some (pipelineOf (first ++ stale)) := by
  have hInstalled :=
    channelRead_undecided taken {} rfl first stale
  rw [List.nil_append, if_pos hMemory] at hInstalled
  change (feed taken (channelRead taken {} (first, stale))
    reads).installed = _
  rw [feed_installed hInstalled, hInstalled]

/-
  A stream that no more bytes can turn into a request gets
  the node pipeline, at the latest with its third byte.
-/
theorem feed_message
    (hNone : c.installed = none)
    (hShort : c.cumulation.length < 3)
    (hNode :
      ∀ more,
        pipelineOf (c.cumulation ++ more) = .message)
    (reads : List (List UInt8 × List UInt8))
    (hLong :
      3 ≤ (c.cumulation ++
        (reads.map Prod.fst).flatten).length) :
    (feed taken c reads).installed = some .message := by
  induction reads generalizing c with
  | nil =>
      simp only [List.map_nil, List.flatten_nil,
        List.append_nil] at hLong
      omega
  | cons read reads ih =>
      rcases read with ⟨chunk, stale⟩
      have hInstalled :=
        channelRead_undecided taken c hNone chunk stale
      change (feed taken
        (channelRead taken c (chunk, stale))
          reads).installed = _
      by_cases hDecided :
          3 ≤ (c.cumulation ++ chunk ++ stale).length
      · rw [if_pos hDecided, List.append_assoc, hNode]
          at hInstalled
        rw [feed_installed hInstalled, hInstalled]
      · rw [if_neg hDecided] at hInstalled
        have hKept :=
          channelRead_kept taken hNone hDecided
        apply ih hInstalled
        · rw [hKept]
          simp only [List.length_append] at hDecided ⊢
          omega
        · intro more
          rw [hKept, List.append_assoc]
          exact hNode (chunk ++ more)
        · rw [hKept, List.append_assoc]
          simpa using hLong

end Reads

/- One or two bytes that a request starts with. -/
theorem eq_of_prefix_get
    {bytes : List UInt8}
    (hNonempty : bytes ≠ [])
    (hShort : bytes.length < 3)
    (hPrefix : bytes <+: GET) :
    bytes = [0x47] ∨ bytes = [0x47, 0x45] := by
  have hTake := List.prefix_iff_eq_take.mp hPrefix
  have hPos := List.length_pos_of_ne_nil hNonempty
  rcases (by omega : bytes.length = 1 ∨ bytes.length = 2)
    with hOne | hTwo
  · rw [hOne] at hTake
    exact .inl hTake
  · rw [hTwo] at hTake
    exact .inr hTake

/- Bytes that no request starts with stay so. -/
theorem pipelineOf_of_not_prefix
    {bytes : List UInt8}
    (hShort : bytes.length < 3)
    (hOther : ¬ bytes <+: GET)
    (more : List UInt8) :
    pipelineOf (bytes ++ more) = .message := by
  rw [pipelineOf, if_neg]
  intro hGet
  apply hOther
  rw [← hGet, List.prefix_take_iff]
  exact ⟨List.prefix_append bytes more, hShort.le⟩

/-
  A beginning of a request that is too short is taken for
  one or not, as the bytes after it in the memory are.
-/
theorem pipelineOf_memory
    {first : List UInt8}
    (hNonempty : first ≠ [])
    (hShort : first.length < 3)
    (hPrefix : first <+: GET) :
    pipelineOf (first ++ [0, 0]) ≠
      pipelineOf (first ++ GET.drop first.length) := by
  rcases eq_of_prefix_get hNonempty hShort hPrefix
    with rfl | rfl <;> simp [pipelineOf, GET]

variable {taken : Nat}

/-
  A stream whose first chunk starts like no request gets the
  node pipeline.
-/
theorem feed_no_request
    {first stale : List UInt8}
    {reads : List (List UInt8 × List UInt8)}
    (hShort : first.length < 3)
    (hOther : ¬ first <+: GET)
    (hLong :
      3 ≤ (first ++ (reads.map Prod.fst).flatten).length) :
    (feed taken {} ((first, stale) :: reads)).installed =
      some .message := by
  have hNode := pipelineOf_of_not_prefix hShort hOther
  by_cases hMemory : 3 ≤ (first ++ stale).length
  · rw [feed_decided taken hMemory, hNode]
  · have hInstalled :=
      channelRead_undecided taken {} rfl first stale
    rw [List.nil_append, if_neg hMemory] at hInstalled
    have hKept : (channelRead taken {}
        (first, stale)).cumulation = first :=
      channelRead_kept taken rfl hMemory
    change (feed taken
      (channelRead taken {} (first, stale))
        reads).installed = _
    apply feed_message hInstalled
    · rw [hKept]
      exact hShort
    · rw [hKept]
      exact hNode
    · rw [hKept]
      exact hLong

/-
  Whatever the memory holds, the stream gets the pipeline it
  belongs to when the first chunk has three bytes or starts
  like no request, and only then.
-/
theorem detected_iff
    (taken : Nat)
    (first : List UInt8)
    (chunks : List (List UInt8))
    (hNonempty : ∀ chunk ∈ first :: chunks, chunk ≠ [])
    (hLong : 3 ≤ (first :: chunks).flatten.length) :
    (∀ reads, reads.map Prod.fst = first :: chunks →
      (feed taken {} reads).installed =
        some (pipelineOf (first :: chunks).flatten)) ↔
      3 ≤ first.length ∨ ¬ first <+: GET := by
  have hFirst := hNonempty first List.mem_cons_self
  constructor
  · intro hDetected
    by_contra hOther
    push Not at hOther
    rcases hOther with ⟨hShort, hPrefix⟩
    have hPos := List.length_pos_of_ne_nil hFirst
    -- the memory after the first chunk decides
    have hDecided :
        ∀ stale, 3 ≤ (first ++ stale).length →
          pipelineOf (first ++ stale) =
            pipelineOf (first :: chunks).flatten := by
      intro stale hMemory
      have hRun := hDetected
        ((first, stale) :: chunks.map fun chunk => (chunk, []))
        (by simp [Function.comp_def])
      rw [feed_decided taken hMemory] at hRun
      exact Option.some.inj hRun
    apply pipelineOf_memory hFirst hShort hPrefix
    rw [hDecided _ (by simp; omega),
      hDecided _ (by simp [GET]; omega)]
  · intro hStart reads hReads
    cases reads with
    | nil => simp at hReads
    | cons read reads =>
        rcases read with ⟨chunk, stale⟩
        simp only [List.map_cons, List.cons.injEq] at hReads
        rcases hReads with ⟨rfl, rfl⟩
        rw [List.flatten_cons] at hLong ⊢
        rcases Nat.lt_or_ge chunk.length 3 with hShort | hThree
        · have hOther := hStart.resolve_left (by omega)
          rw [feed_no_request hShort hOther hLong,
            pipelineOf_of_not_prefix hShort hOther]
        · rw [feed_decided taken (by simp; omega),
            pipelineOf_append hThree,
            pipelineOf_append hThree]

/- A request whose first chunk has three bytes. -/
theorem detected_whole_request :
    (feed 0 {}
      [([0x47, 0x45, 0x54], []), ([0x20], [0])]).installed =
        some .http :=
  (detected_iff 0 [0x47, 0x45, 0x54] [[0x20]] (by decide)
    (by decide)).mpr (by decide) _ rfl

/- The first byte of a request, in memory with zeros. -/
theorem request_cut_gets_message :
    (feed 0 {} [([0x47], [0, 0]), ([0x45, 0x54], [])]).installed =
        some .message ∧
      pipelineOf [[0x47], [0x45, 0x54]].flatten = .http := by
  refine ⟨?_, by decide⟩
  rw [feed_decided 0 (by decide)]
  decide

end ProtocolDispatcher

end NettyCluster

------------------------------------------------------------
-- Passing On
------------------------------------------------------------

namespace NettyCluster

namespace ProtocolDispatcher

/- What a removed decoder hands on is what can be read. -/
@[simp] theorem flatten_handlerRemoved (o : ByteBuf) :
    (handlerRemoved o).flatten = o.readable := by
  unfold handlerRemoved
  split
  case isTrue hNil => simp [hNil]
  case isFalse => simp

/- What the first handler is given at the switch-over. -/
theorem offered_first
    {first : List UInt8}
    (hThree : 3 ≤ first.length)
    (taken : Nat)
    (stale : List UInt8) :
    (channelRead taken {} (first, stale)).offered.flatten =
      match pipelineOf first with
      | .http => first ++ first.drop taken
      | .message => first := by
  have hMemory : 3 ≤ (first ++ stale).length := by
    simp only [List.length_append]
    omega
  simp only [channelRead, List.nil_append, decode_received,
    if_pos hMemory, pipelineOf_append hThree]
  cases pipelineOf first with
  | http =>
      simp [dispatchToHttp, ByteBuf.readable_readBytes]
  | message => simp [dispatchToMessage]

/- What it is given in all: the rest follows unchanged. -/
theorem offered_switch
    {first : List UInt8}
    (hThree : 3 ≤ first.length)
    {taken : Nat}
    {stale : List UInt8}
    {reads : List (List UInt8 × List UInt8)} :
    (feed taken {} ((first, stale) :: reads)).offered.flatten =
      (match pipelineOf first with
        | .http => first ++ first.drop taken
        | .message => first) ++
          (reads.map Prod.fst).flatten := by
  have hMemory : 3 ≤ (first ++ stale).length := by
    simp only [List.length_append]
    omega
  have hInstalled :=
    channelRead_undecided taken {} rfl first stale
  rw [List.nil_append, if_pos hMemory] at hInstalled
  change (feed taken (channelRead taken {} (first, stale))
    reads).offered.flatten = _
  rw [feed_installed hInstalled, List.flatten_append,
    offered_first hThree]

/-
  The bytes are passed on exactly once to the first handler
  of the node pipeline, and to that of the client pipeline
  when it reads all it is given at the switch-over.
-/
theorem offered_iff
    (taken : Nat)
    (first stale : List UInt8)
    (reads : List (List UInt8 × List UInt8))
    (hThree : 3 ≤ first.length)
    (hTaken : taken ≤ first.length) :
    (feed taken {} ((first, stale) :: reads)).offered.flatten =
        (first :: reads.map Prod.fst).flatten ↔
      pipelineOf first = .message ∨ taken = first.length := by
  rw [offered_switch hThree, List.flatten_cons,
    List.append_left_inj]
  cases pipelineOf first with
  | http =>
      simp only [List.append_right_eq_self,
        List.drop_eq_nil_iff, reduceCtorEq, false_or]
      omega
  | message => simp

/- A request that is read whole at the switch-over. -/
theorem offered_whole_request :
    (feed 4 {} [([0x47, 0x45, 0x54, 0x20], []),
        ([0x2f], [])]).offered.flatten =
      [0x47, 0x45, 0x54, 0x20, 0x2f] :=
  (offered_iff 4 [0x47, 0x45, 0x54, 0x20] []
    [([0x2f], [])] (by decide) (by decide)).mpr (by decide)

/- A request of which nothing is read comes twice. -/
theorem request_offered_twice :
    (feed 0 {} [([0x47, 0x45, 0x54, 0x20], [])]).offered.flatten ≠
      [0x47, 0x45, 0x54, 0x20] := by
  rw [Ne, offered_switch (by decide)]
  decide

end ProtocolDispatcher

end NettyCluster
