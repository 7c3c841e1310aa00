import SailsProtocol.Text.Json

/-!
# Hex digests

`createHash('sha256').update(s).digest('hex')` hashes the UTF-8 bytes of a string and writes
the digest in lower case hex digits. `sha256` is a parameter. A hex digest holds no other
character, and with a `sha256` without collisions it is that of one well-formed string
(`hexDigest_inj`). `fromHex` reads such digits back. `tableHash` is a hash without collisions
that has given digests for given bytes.
-/

namespace Text

/-- A lower-case hex digit. -/
def isHexUnit (u : UInt16) : Bool := isDigit u || (0x61 ≤ u.toNat && u.toNat ≤ 0x66)

/-- Bytes in lower-case hex. -/
def hexText (bytes : List UInt8) : JsString :=
  bytes.flatMap fun b => [hexUnit (b.toNat / 16), hexUnit (b.toNat % 16)]

/-- `createHash('sha256').update(s).digest('hex')`. -/
def hexDigest (sha256 : List UInt8 → List UInt8) (s : JsString) : JsString :=
  hexText (sha256 (toUtf8 s))

/-- The value of a hex digit of either case. -/
def hexUnitValue (u : UInt16) : Option ℕ :=
  if isDigit u then some (u.toNat - 0x30)
  else if 0x61 ≤ u.toNat ∧ u.toNat ≤ 0x66 then some (u.toNat - 0x57)
  else if 0x41 ≤ u.toNat ∧ u.toNat ≤ 0x46 then some (u.toNat - 0x37)
  else none

/-- `Buffer.from(s, 'hex')` stops where no pair of hex digits follows. -/
def fromHex : JsString → List UInt8
  | u :: v :: s =>
    match hexUnitValue u, hexUnitValue v with
    | some a, some b => UInt8.ofNat (16 * a + b) :: fromHex s
    | _, _ => []
  | _ => []

theorem hexUnitValue_hexUnit : ∀ d < 16, hexUnitValue (hexUnit d) = some d := by
  decide

/-- A hex text is decoded to its bytes. -/
theorem fromHex_hexText (bytes : List UInt8) : fromHex (hexText bytes) = bytes := by
  induction bytes with
  | nil => rfl
  | cons b bytes ih =>
    have hb := b.toNat_lt
    have h16 : 16 * (b.toNat / 16) + b.toNat % 16 = b.toNat := by omega
    have htext : hexText (b :: bytes) =
        hexUnit (b.toNat / 16) :: hexUnit (b.toNat % 16) :: hexText bytes := rfl
    rw [htext, fromHex, hexUnitValue_hexUnit _ (by omega), hexUnitValue_hexUnit _ (by omega)]
    dsimp only
    rw [ih, h16, UInt8.ofNat_toNat]

theorem isHexUnit_hexUnit {d : ℕ} (h : d < 16) : isHexUnit (hexUnit d) = true := by
  unfold isHexUnit isDigit hexUnit
  simp only [Bool.or_eq_true, Bool.and_eq_true, decide_eq_true_eq, UInt16.toNat_ofNat']
  split <;> omega

/-- Hex text consists of hex digits. -/
theorem isHexUnit_of_mem_hexText {bytes : List UInt8} {u : UInt16} (h : u ∈ hexText bytes) :
    isHexUnit u = true := by
  obtain ⟨b, -, hu⟩ := List.mem_flatMap.mp h
  have hb := b.toNat_lt
  rcases List.mem_cons.mp hu with rfl | hu
  · exact isHexUnit_hexUnit (by omega)
  · rw [List.mem_singleton.mp hu]
    exact isHexUnit_hexUnit (by omega)

/-- Bytes of one hex text are the same. -/
theorem hexText_injective : Function.Injective hexText := by
  intro bytes bytes' h
  induction bytes generalizing bytes' with
  | nil =>
    cases bytes' with
    | nil => rfl
    | cons b bytes' => cases h
  | cons a bytes ih =>
    cases bytes' with
    | nil => cases h
    | cons b bytes' =>
      simp only [hexText, List.flatMap_cons, List.cons_append, List.nil_append,
        List.cons.injEq] at h
      obtain ⟨hhigh, hlow, hrest⟩ := h
      have ha := a.toNat_lt
      have hb := b.toNat_lt
      have hdiv := congrArg hexDigitValue hhigh
      have hmod := congrArg hexDigitValue hlow
      rw [hexDigitValue_hexUnit (by omega), hexDigitValue_hexUnit (by omega)] at hdiv hmod
      have hab : a = b := UInt8.toNat_inj.mp (by omega)
      rw [hab, ih hrest]

variable {sha256 : List UInt8 → List UInt8}

/-- A hex digest is that of one well-formed string. -/
theorem hexDigest_inj (hsha : Function.Injective sha256) {s t : JsString}
    (hs : toWellFormed s = s) (ht : toWellFormed t = t)
    (h : hexDigest sha256 s = hexDigest sha256 t) : s = t := by
  have hbytes : toUtf8 s = toUtf8 t := hsha (hexText_injective h)
  rw [← hs, ← ht]
  exact toUtf8_eq_iff.mp hbytes

theorem not_mem_hexDigest {u : UInt16} (hu : isHexUnit u = false) (s : JsString) :
    u ∉ hexDigest sha256 s := by
  intro h
  rw [isHexUnit_of_mem_hexText h] at hu
  cases hu

theorem plain_of_mem_hexDigest {u : UInt16} {s : JsString} (h : u ∈ hexDigest sha256 s) :
    isSurrogate u = false := by
  have hhex := isHexUnit_of_mem_hexText h
  simp only [isHexUnit, isDigit, Bool.or_eq_true, Bool.and_eq_true, decide_eq_true_eq] at hhex
  exact plain_of_lt (by omega)

/-! ## Joined texts -/

/-- The parts of a joined text are well formed on their own. -/
theorem toWellFormed_append_plain {u : UInt16} (h : isSurrogate u = false) (s t : JsString) :
    toWellFormed (s ++ u :: t) = toWellFormed s ++ u :: toWellFormed t := by
  have hu : charUnits (unitScalar u) = [u] := by
    rw [charUnits_unitScalar, unitWellFormed, if_neg (by simp [h])]
  rw [← flatMap_charUnits_scalars, scalars_append_plain h, List.flatMap_append,
    List.flatMap_cons, hu, flatMap_charUnits_scalars, flatMap_charUnits_scalars]
  rfl

/-- A text is split at the first separator. -/
theorem split_first {c : UInt16} {l l' r r' : JsString} (hl : c ∉ l) (hl' : c ∉ l')
    (h : l ++ c :: r = l' ++ c :: r') : l = l' ∧ r = r' := by
  induction l generalizing l' with
  | nil =>
    cases l' with
    | nil => exact ⟨rfl, (List.cons.inj h).2⟩
    | cons b l' =>
      obtain ⟨rfl, -⟩ := List.cons.inj h
      exact absurd List.mem_cons_self hl'
  | cons a l ih =>
    cases l' with
    | nil =>
      obtain ⟨rfl, -⟩ := List.cons.inj h
      exact absurd List.mem_cons_self hl
    | cons b l' =>
      obtain ⟨rfl, hrest⟩ := List.cons.inj h
      obtain ⟨rfl, hr⟩ := ih (fun hm => hl (List.mem_cons_of_mem _ hm))
        (fun hm => hl' (List.mem_cons_of_mem _ hm)) hrest
      exact ⟨rfl, hr⟩

/-- A text is split at the last separator. -/
theorem split_last {c : UInt16} {l l' r r' : JsString} (hr : c ∉ r) (hr' : c ∉ r')
    (h : l ++ c :: r = l' ++ c :: r') : l = l' ∧ r = r' := by
  have hreverse := congrArg List.reverse h
  simp only [List.reverse_append, List.reverse_cons, List.append_assoc, List.singleton_append]
    at hreverse
  obtain ⟨hrs, hls⟩ := split_first (by simpa using hr) (by simpa using hr') hreverse
  exact ⟨List.reverse_injective hls, List.reverse_injective hrs⟩

/-! ## A hash by a table -/

/-- The digest the table has for the bytes, and else one that is too long for a digest. -/
def tableHash (table : List (List UInt8 × List UInt8)) (bytes : List UInt8) : List UInt8 :=
  ((table.find? fun entry => entry.1 == bytes).map Prod.snd).getD (bytes ++ List.replicate 33 0)

/-- Digests of 32 bytes, each for one text. -/
def TableOk (table : List (List UInt8 × List UInt8)) : Bool :=
  table.all (fun entry => entry.2.length == 32) && decide (table.map Prod.snd).Nodup

/-- The hash of a good table is injective. -/
theorem tableHash_injective {table : List (List UInt8 × List UInt8)} (h : TableOk table = true) :
    Function.Injective (tableHash table) := by
  rw [TableOk, Bool.and_eq_true, decide_eq_true_eq] at h
  obtain ⟨hlen, hnodup⟩ := h
  have hcases : ∀ bytes, (∃ entry ∈ table, entry.1 = bytes ∧ tableHash table bytes = entry.2 ∧
      (tableHash table bytes).length = 32) ∨
      tableHash table bytes = bytes ++ List.replicate 33 0 ∧
        (tableHash table bytes).length ≠ 32 := by
    intro bytes
    cases hfind : table.find? fun entry => entry.1 == bytes with
    | none =>
      have hhash : tableHash table bytes = bytes ++ List.replicate 33 0 := by
        rw [tableHash, hfind]
        rfl
      refine Or.inr ⟨hhash, ?_⟩
      rw [hhash, List.length_append, List.length_replicate]
      omega
    | some entry =>
      have hmem := List.mem_of_find?_eq_some hfind
      have hkey : entry.1 = bytes := by simpa using List.find?_some hfind
      have hhash : tableHash table bytes = entry.2 := by
        rw [tableHash, hfind]
        rfl
      refine Or.inl ⟨entry, hmem, hkey, hhash, ?_⟩
      rw [hhash]
      simpa using List.all_eq_true.mp hlen entry hmem
  intro b b' hbb
  rcases hcases b with ⟨entry, hmem, rfl, hhash, hb⟩ | ⟨hhash, hb⟩ <;>
    rcases hcases b' with ⟨entry', hmem', rfl, hhash', hb'⟩ | ⟨hhash', hb'⟩
  · rw [List.inj_on_of_nodup_map hnodup hmem hmem' (by rw [← hhash, ← hhash', hbb])]
  · exact absurd (hbb ▸ hb) hb'
  · exact absurd (hbb ▸ hb') hb
  · rw [hhash, hhash'] at hbb
    exact List.append_cancel_right hbb

end Text
