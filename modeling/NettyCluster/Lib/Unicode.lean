import Mathlib.Data.List.Basic

/-
  Code points and their two encodings, in bytes and in
  16-bit units.

  A surrogate has a three-byte encoding here, so that bytes
  which are no valid text are described too. The encodings
  of two texts are equal only if their code points are, and
  units are those of a string exactly when their code points
  are the string's.

  Main declarations:
    * `Unicode.encodePoint`
    * `Unicode.encodePoint_append_inj`
    * `Unicode.units`, `Unicode.points`
    * `Unicode.toUtf16`
    * `Unicode.encode_points_eq_iff`
-/

------------------------------------------------------------
-- Bytes
------------------------------------------------------------

namespace Unicode

/- The bytes of a code point below `0x110000`. -/
def encodePoint (v : Nat) : List UInt8 :=
  if v < 128 then
    [UInt8.ofNat v]
  else if v < 2048 then
    [UInt8.ofNat (v / 64 + 192), UInt8.ofNat (v % 64 + 128)]
  else if v < 65536 then
    [UInt8.ofNat (v / 4096 + 224),
      UInt8.ofNat (v / 64 % 64 + 128),
      UInt8.ofNat (v % 64 + 128)]
  else
    [UInt8.ofNat (v / 262144 + 240),
      UInt8.ofNat (v / 4096 % 64 + 128),
      UInt8.ofNat (v / 64 % 64 + 128),
      UInt8.ofNat (v % 64 + 128)]

theorem encodePoint_ne_nil (v : Nat) :
    encodePoint v ≠ [] := by
  unfold encodePoint
  split_ifs <;> simp

/- The code point that bytes begin with. -/
def readPoint : List UInt8 → Option (Nat × List UInt8)
| [] => none
| a :: bs =>
    if a.toNat < 128 then
      some (a.toNat, bs)
    else if a.toNat < 224 then
      match bs with
      | b :: bs =>
          some (a.toNat % 32 * 64 + b.toNat % 64, bs)
      | _ => none
    else if a.toNat < 240 then
      match bs with
      | b :: c :: bs =>
          some (a.toNat % 16 * 4096 + b.toNat % 64 * 64 +
            c.toNat % 64, bs)
      | _ => none
    else
      match bs with
      | b :: c :: d :: bs =>
          some (a.toNat % 8 * 262144 + b.toNat % 64 * 4096 +
            c.toNat % 64 * 64 + d.toNat % 64, bs)
      | _ => none

theorem toNat_ofNat_lt
    {n : Nat}
    (hn : n < 256) :
    (UInt8.ofNat n).toNat = n := by
  rw [UInt8.toNat_ofNat', Nat.mod_eq_of_lt hn]

/- Reading undoes encoding, whatever bytes follow. -/
theorem readPoint_encodePoint
    {v : Nat}
    (hv : v < 0x110000)
    (rest : List UInt8) :
    readPoint (encodePoint v ++ rest) = some (v, rest) := by
  unfold encodePoint
  split_ifs with hOne hTwo hThree <;>
    simp only [List.cons_append, List.nil_append, readPoint]
  · rw [toNat_ofNat_lt (by omega), if_pos hOne]
  · rw [toNat_ofNat_lt (by omega : v / 64 + 192 < 256),
      toNat_ofNat_lt (by omega), if_neg (by omega),
      if_pos (by omega)]
    congr 2
    omega
  · rw [toNat_ofNat_lt (by omega : v / 4096 + 224 < 256),
      toNat_ofNat_lt (by omega : v / 64 % 64 + 128 < 256),
      toNat_ofNat_lt (by omega), if_neg (by omega),
      if_neg (by omega), if_pos (by omega)]
    congr 2
    omega
  · rw [toNat_ofNat_lt (by omega : v / 262144 + 240 < 256),
      toNat_ofNat_lt
        (by omega : v / 4096 % 64 + 128 < 256),
      toNat_ofNat_lt (by omega : v / 64 % 64 + 128 < 256),
      toNat_ofNat_lt (by omega), if_neg (by omega),
      if_neg (by omega), if_neg (by omega)]
    congr 2
    omega

/- No code point's bytes begin another's. -/
theorem encodePoint_append_inj
    {v w : Nat}
    {p q : List UInt8}
    (hv : v < 0x110000)
    (hw : w < 0x110000)
    (hText : encodePoint v ++ p = encodePoint w ++ q) :
    v = w ∧ p = q := by
  have hRead := congrArg readPoint hText
  rw [readPoint_encodePoint hv, readPoint_encodePoint hw]
    at hRead
  simpa using hRead

/- Two texts with the same bytes have the same points. -/
theorem flatMap_encodePoint_inj
    {vs ws : List Nat}
    (hvs : ∀ v ∈ vs, v < 0x110000)
    (hws : ∀ w ∈ ws, w < 0x110000)
    (hText :
      vs.flatMap encodePoint = ws.flatMap encodePoint) :
    vs = ws := by
  induction vs generalizing ws with
  | nil =>
      cases ws with
      | nil => rfl
      | cons w ws =>
          have hNil := (List.append_eq_nil_iff.mp hText.symm).1
          exact absurd hNil (encodePoint_ne_nil w)
  | cons v vs ih =>
      cases ws with
      | nil =>
          have hNil := (List.append_eq_nil_iff.mp hText).1
          exact absurd hNil (encodePoint_ne_nil v)
      | cons w ws =>
          rw [List.forall_mem_cons] at hvs hws
          rw [List.flatMap_cons, List.flatMap_cons] at hText
          rcases encodePoint_append_inj hvs.1 hws.1 hText
            with ⟨rfl, hRest⟩
          rw [ih hvs.2 hws.2 hRest]

/- A character's bytes are those of its code point. -/
theorem utf8EncodeChar_eq (c : Char) :
    String.utf8EncodeChar c = encodePoint c.toNat := by
  have hBound : c.toNat < 0x110000 := c.valid.elim
    (fun h => Nat.lt_trans h (by decide)) (fun h => h.2)
  change c.val.toNat < 0x110000 at hBound
  simp only [String.utf8EncodeChar, encodePoint,
    Char.toNat]
  generalize c.val.toNat = v at hBound ⊢
  split_ifs <;> first | rfl | omega | skip
  · rw [Nat.mod_eq_of_lt (by omega : v / 64 < 32)]
  · rw [Nat.mod_eq_of_lt (by omega : v / 4096 < 16)]
  · rw [Nat.mod_eq_of_lt (by omega : v / 262144 < 8)]

end Unicode

------------------------------------------------------------
-- Units
------------------------------------------------------------

namespace Unicode

/- The 16-bit units of a code point: one, or two surrogates. -/
def units (v : Nat) : List UInt16 :=
  if v < 65536 then
    [UInt16.ofNat v]
  else
    [UInt16.ofNat ((v - 65536) / 1024 + 55296),
      UInt16.ofNat ((v - 65536) % 1024 + 56320)]

/- The first unit of a pair. -/
def IsHigh (u : UInt16) : Prop :=
  55296 ≤ u.toNat ∧ u.toNat ≤ 56319

/- The second unit of a pair. -/
def IsLow (u : UInt16) : Prop :=
  56320 ≤ u.toNat ∧ u.toNat ≤ 57343

instance (u : UInt16) : Decidable (IsHigh u) :=
  inferInstanceAs (Decidable (_ ∧ _))

instance (u : UInt16) : Decidable (IsLow u) :=
  inferInstanceAs (Decidable (_ ∧ _))

/- The code point of a pair. -/
def pair (h l : UInt16) : Nat :=
  1024 * (h.toNat - 55296) + (l.toNat - 56320) + 65536

/- The code points of units; a lone surrogate is its own. -/
def points : List UInt16 → List Nat
| [] => []
| [u] => [u.toNat]
| h :: l :: us =>
    if IsHigh h ∧ IsLow l then
      pair h l :: points us
    else
      h.toNat :: points (l :: us)

/- The units of a string. -/
def toUtf16 (s : String) : List UInt16 :=
  (s.toList.map Char.toNat).flatMap units

theorem units_toNat (u : UInt16) :
    units u.toNat = [u] := by
  rw [units, if_pos u.toNat_lt, UInt16.ofNat_toNat]

theorem units_pair
    {h l : UInt16}
    (hHigh : IsHigh h)
    (hLow : IsLow l) :
    units (pair h l) = [h, l] := by
  have hFirst :
      (pair h l - 65536) / 1024 + 55296 = h.toNat := by
    unfold pair IsHigh IsLow at *
    omega
  have hSecond :
      (pair h l - 65536) % 1024 + 56320 = l.toNat := by
    unfold pair IsHigh IsLow at *
    omega
  rw [units, if_neg (by unfold pair; omega), hFirst,
    hSecond, UInt16.ofNat_toNat, UInt16.ofNat_toNat]

/- Units are those of their code points. -/
theorem flatMap_units_points (us : List UInt16) :
    (points us).flatMap units = us := by
  induction us using points.induct with
  | case1 => rfl
  | case2 u => simp [points, units_toNat]
  | case3 h l us hPair ih =>
      rw [points, if_pos hPair, List.flatMap_cons, ih,
        units_pair hPair.1 hPair.2]
      rfl
  | case4 h l us hPair ih =>
      rw [points, if_neg hPair, List.flatMap_cons, ih,
        units_toNat]
      rfl

theorem points_lt (us : List UInt16) :
    ∀ v ∈ points us, v < 0x110000 := by
  induction us using points.induct with
  | case1 => simp [points]
  | case2 u =>
      have hUnit := u.toNat_lt
      simp only [points, List.mem_singleton, forall_eq]
      omega
  | case3 h l us hPair ih =>
      rw [points, if_pos hPair, List.forall_mem_cons]
      refine ⟨?_, ih⟩
      unfold pair IsHigh IsLow at *
      omega
  | case4 h l us hPair ih =>
      have hUnit := h.toNat_lt
      rw [points, if_neg hPair, List.forall_mem_cons]
      exact ⟨by omega, ih⟩

theorem points_cons
    {u : UInt16}
    (hu : ¬ IsHigh u)
    (us : List UInt16) :
    points (u :: us) = u.toNat :: points us := by
  cases us with
  | nil => rfl
  | cons v us =>
      rw [points, if_neg (fun hPair => hu hPair.1)]

/- A code point that is no surrogate. -/
def IsScalar (v : Nat) : Prop :=
  v < 55296 ∨ 57343 < v ∧ v < 0x110000

theorem isScalar_toNat (c : Char) : IsScalar c.toNat :=
  c.valid

theorem IsScalar.lt
    {v : Nat}
    (hv : IsScalar v) :
    v < 0x110000 := by
  unfold IsScalar at hv
  omega

theorem toNat_ofNat_unit
    {n : Nat}
    (hn : n < 65536) :
    (UInt16.ofNat n).toNat = n := by
  rw [UInt16.toNat_ofNat', Nat.mod_eq_of_lt hn]

/- The units of text have the text's code points. -/
theorem points_flatMap_units
    {vs : List Nat}
    (hvs : ∀ v ∈ vs, IsScalar v) :
    points (vs.flatMap units) = vs := by
  induction vs with
  | nil => rfl
  | cons v vs ih =>
      rw [List.forall_mem_cons] at hvs
      have hScalar := hvs.1
      rw [List.flatMap_cons]
      specialize ih hvs.2
      rw [units]
      split_ifs with hSmall
      · have hUnit := toNat_ofNat_unit hSmall
        have hNotHigh : ¬ IsHigh (UInt16.ofNat v) := by
          unfold IsHigh IsScalar at *
          omega
        rw [List.singleton_append, points_cons hNotHigh,
          hUnit, ih]
      · have hBound := hScalar.lt
        have hFirst :=
          toNat_ofNat_unit
            (by omega :
              (v - 65536) / 1024 + 55296 < 65536)
        have hSecond :=
          toNat_ofNat_unit
            (by omega :
              (v - 65536) % 1024 + 56320 < 65536)
        generalize
          UInt16.ofNat ((v - 65536) / 1024 + 55296) = h
            at hFirst ⊢
        generalize
          UInt16.ofNat ((v - 65536) % 1024 + 56320) = l
            at hSecond ⊢
        have hPair : IsHigh h ∧ IsLow l := by
          unfold IsHigh IsLow
          omega
        have hPoint : pair h l = v := by
          unfold pair
          omega
        change points (h :: l :: vs.flatMap units) = v :: vs
        rw [points, if_pos hPair, ih, hPoint]

theorem points_toUtf16 (s : String) :
    points (toUtf16 s) = s.toList.map Char.toNat := by
  apply points_flatMap_units
  intro v hMem
  rcases List.mem_map.mp hMem with ⟨c, _, rfl⟩
  exact isScalar_toNat c

------------------------------------------------------------
-- Strings
------------------------------------------------------------

/- The bytes of a string are those of its code points. -/
theorem toByteArray_eq (s : String) :
    s.toByteArray.data.toList =
      (s.toList.map Char.toNat).flatMap encodePoint := by
  rw [← String.utf8Encode_toList, List.utf8Encode,
    List.flatMap_map, List.data_toByteArray]
  exact congrArg (List.flatMap · s.toList)
    (funext utf8EncodeChar_eq)

/-
  The bytes of units are those of a string only if the units
  are the string's.
-/
theorem encode_points_eq_iff
    (us : List UInt16)
    (s : String) :
    (points us).flatMap encodePoint =
        s.toByteArray.data.toList ↔
      us = toUtf16 s := by
  rw [toByteArray_eq]
  constructor
  · intro hText
    have hPoints :
        points us = s.toList.map Char.toNat := by
      apply flatMap_encodePoint_inj (points_lt us) _ hText
      intro v hMem
      rcases List.mem_map.mp hMem with ⟨c, _, rfl⟩
      exact (isScalar_toNat c).lt
    rw [← flatMap_units_points us, hPoints]
    rfl
  · rintro rfl
    rw [points_toUtf16]

end Unicode
