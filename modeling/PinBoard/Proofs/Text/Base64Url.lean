import PinBoard.Base64Url
import PinBoard.Proofs.Result
import PinBoard.Proofs.Text.Utf8

/-!
# Base64 for URLs: one written form for each sequence of bytes

The reader accepts the written form of a sequence of bytes and nothing else. Whole groups of four
symbols are read one after the other; in the last group the reader refuses padding and bits that
belong to no byte, so what it does accept is what the writer makes of the bytes it gives.
-/

namespace PinBoard.Base64Url

open Text

/-! ## Symbols -/

/-- The byte of a symbol. -/
def symbolByte (n : Nat) : UInt8 := UInt8.ofNat (symbol n).toNat

/-- A symbol is read as the six bits that it was written for. -/
theorem sextet?_symbolByte {n : Nat} (h : n < 64) : sextet? (symbolByte n) = some n := by
  have hall : ∀ n < 64, sextet? (symbolByte n) = some n := by decide
  exact hall n h

/-- A byte that is read as six bits is their symbol. -/
theorem eq_symbolByte_of_sextet? {b : UInt8} {n : Nat} (h : sextet? b = some n) :
    b = symbolByte n ∧ n < 64 := by
  have hall : ∀ m < 256, ∀ n ∈ sextet? (UInt8.ofNat m),
      UInt8.ofNat m = symbolByte n ∧ n < 64 := by
    decide +kernel
  have hbyte := hall b.toNat b.toNat_lt n
  rw [UInt8.ofNat_toNat] at hbyte
  exact hbyte h

/-- No symbol is padding. -/
theorem symbolByte_ne_pad {n : Nat} (h : n < 64) : symbolByte n ≠ pad := by
  have hall : ∀ n < 64, symbolByte n ≠ pad := by decide
  exact hall n h

/-- The symbols. -/
def alphabet : List Char := (List.range 64).map symbol

/-- There are no symbols but those of six bits. -/
theorem symbol_mem_alphabet (n : Nat) : symbol n ∈ alphabet := by
  by_cases h : n < 64
  · exact List.mem_map.mpr ⟨n, List.mem_range.mpr h, rfl⟩
  · have hlast : symbol n = symbol 63 := by
      unfold symbol
      rw [if_neg (by omega), if_neg (by omega), if_neg (by omega), if_neg (by omega)]
      rfl
    rw [hlast]
    exact List.mem_map.mpr ⟨63, List.mem_range.mpr (by omega), rfl⟩

/-- Symbols are ASCII. -/
theorem symbol_ascii (n : Nat) : (symbol n).toNat < 0x80 := by
  have hall : alphabet.all (fun c => c.toNat < 0x80) = true := by decide
  exact of_decide_eq_true (List.all_eq_true.mp hall _ (symbol_mem_alphabet n))

/-- The bytes of a text that begins with a symbol. -/
@[simp] theorem encodeChars_symbol (n : Nat) (cs : List Char) :
    Utf8.encodeChars (symbol n :: cs) = symbolByte n :: Utf8.encodeChars cs := by
  rw [Utf8.encodeChars, List.flatMap_cons, Utf8.encodeChar_ascii (symbol_ascii n)]
  rfl

@[simp] theorem encodeChars_nil : Utf8.encodeChars [] = [] := rfl

/-- The written form consists of symbols. -/
theorem mem_alphabet_of_mem_encode {bytes : List UInt8} {c : Char} (h : c ∈ encode bytes) :
    c ∈ alphabet := by
  induction bytes using encode.induct with
  | case1 => exact absurd h List.not_mem_nil
  | case2 a =>
    simp only [encode, List.mem_cons, List.not_mem_nil, or_false] at h
    rcases h with rfl | rfl <;> exact symbol_mem_alphabet _
  | case3 a b =>
    simp only [encode, List.mem_cons, List.not_mem_nil, or_false] at h
    rcases h with rfl | rfl | rfl <;> exact symbol_mem_alphabet _
  | case4 a b c rest ih =>
    simp only [encode, List.mem_cons] at h
    rcases h with rfl | rfl | rfl | rfl | h
    · exact symbol_mem_alphabet _
    · exact symbol_mem_alphabet _
    · exact symbol_mem_alphabet _
    · exact symbol_mem_alphabet _
    · exact ih h

/-! ## Bytes from sextets -/

/-- The number of a byte gives the byte back. -/
theorem ofNat_eq {n : Nat} {a : UInt8} (h : n = a.toNat) : UInt8.ofNat n = a := by
  rw [h, UInt8.ofNat_toNat]

/-- A number below 256 is the number of its byte. -/
theorem toNat_ofNat {n : Nat} (h : n < 256) : (UInt8.ofNat n).toNat = n :=
  UInt8.toNat_ofNat_of_lt h

/-! ## Single symbols -/

/-- The symbol at an offset is read wherever it stands. -/
theorem sextetAt_symbolByte {n : Nat} (h : n < 64) (offset : Nat) :
    sextetAt offset (symbolByte n) = .ok n := by
  rw [sextetAt, sextet?_symbolByte h]

theorem eq_symbolByte_of_sextetAt {offset n : Nat} {b : UInt8} (h : sextetAt offset b = .ok n) :
    b = symbolByte n ∧ n < 64 := by
  unfold sextetAt at h
  split at h
  · rename_i m hm
    rw [← Except.ok.inj h]
    exact eq_symbolByte_of_sextet? hm
  · exact absurd h (by simp)

/-! ## Whole groups -/

/-- The three bytes of four sextets. -/
def tripleOf (w x y z : Nat) : List UInt8 :=
  [UInt8.ofNat (w * 4 + x / 16), UInt8.ofNat (x % 16 * 16 + y / 4), UInt8.ofNat (y % 4 * 64 + z)]

/-- Four sextets are what the writer makes of their bytes. -/
theorem encode_tripleOf {w x y z : Nat} (hw : w < 64) (hx : x < 64) (hy : y < 64) (hz : z < 64)
    (more : List UInt8) :
    encode (tripleOf w x y z ++ more) =
      symbol w :: symbol x :: symbol y :: symbol z :: encode more := by
  unfold tripleOf
  rw [List.cons_append, List.cons_append, List.cons_append, List.nil_append, encode,
    toNat_ofNat (by omega), toNat_ofNat (by omega), toNat_ofNat (by omega)]
  rw [show (w * 4 + x / 16) / 4 = w by omega,
    show (w * 4 + x / 16) % 4 * 16 + (x % 16 * 16 + y / 4) / 16 = x by omega,
    show (x % 16 * 16 + y / 4) % 16 * 4 + (y % 4 * 64 + z) / 64 = y by omega,
    show (y % 4 * 64 + z) % 64 = z by omega]

/-- The sextets of three bytes give them back. -/
theorem tripleOf_sextets (a b c : UInt8) :
    tripleOf (a.toNat / 4) (a.toNat % 4 * 16 + b.toNat / 16) (b.toNat % 16 * 4 + c.toNat / 64)
      (c.toNat % 64) = [a, b, c] := by
  have hb := b.toNat_lt
  have hc := c.toNat_lt
  unfold tripleOf
  rw [ofNat_eq (a := a) (by omega), ofNat_eq (a := b) (by omega), ofNat_eq (a := c) (by omega)]

/-! ## The last group -/

/-- A last group without padding is read symbol by symbol. -/
theorem lastSextets_symbols {ns : List Nat} (h : ∀ n ∈ ns, n < 64) (offset index : Nat) :
    lastSextets offset index none (ns.map symbolByte) = .ok (ns, none) := by
  induction ns generalizing index with
  | nil => rfl
  | cons n rest ih =>
    have hn : n < 64 := h n List.mem_cons_self
    have hrest := ih (fun m hm => h m (List.mem_cons_of_mem n hm)) (index + 1)
    rw [List.map_cons, lastSextets, if_neg (symbolByte_ne_pad hn)]
    simp only [sextetAt_symbolByte hn, hrest, ok_bind]

/-- Padding that was met is not forgotten. -/
theorem isSome_of_lastSextets {offset index first : Nat} {group : List UInt8} {ns : List Nat}
    {padded : Option Nat} (h : lastSextets offset index (some first) group = .ok (ns, padded)) :
    padded.isSome = true := by
  induction group generalizing index first with
  | nil =>
    rw [lastSextets, Except.ok.injEq, Prod.mk.injEq] at h
    rw [← h.2]
    rfl
  | cons b rest ih =>
    rw [lastSextets] at h
    split at h
    · split at h
      · exact absurd h (by simp)
      · exact ih h
    · exact absurd h (by simp)

/-- A last group in which no padding was met consists of symbols. -/
theorem eq_symbols_of_lastSextets {offset index : Nat} {group : List UInt8} {ns : List Nat}
    (h : lastSextets offset index none group = .ok (ns, none)) :
    group = ns.map symbolByte ∧ ∀ n ∈ ns, n < 64 := by
  induction group generalizing index ns with
  | nil =>
    rw [lastSextets, Except.ok.injEq, Prod.mk.injEq] at h
    rw [← h.1]
    exact ⟨rfl, fun n hn => absurd hn List.not_mem_nil⟩
  | cons b rest ih =>
    rw [lastSextets] at h
    split at h
    · split at h
      · exact absurd h (by simp)
      · exact absurd (isSome_of_lastSextets h) (by simp)
    · obtain ⟨n, hn, h⟩ := bind_eq_ok_iff.mp h
      obtain ⟨⟨more, padded⟩, hmore, h⟩ := bind_eq_ok_iff.mp h
      rw [Except.ok.injEq, Prod.mk.injEq] at h
      obtain ⟨rfl, rfl⟩ := h
      obtain ⟨hbyte, hlt⟩ := eq_symbolByte_of_sextetAt hn
      obtain ⟨hrest, hall⟩ := ih hmore
      constructor
      · rw [hbyte, hrest, List.map_cons]
      · intro m hm
        rcases List.mem_cons.mp hm with rfl | hm
        · exact hlt
        · exact hall m hm

/-- The bytes that the sextets of a last group give are written as these sextets: bits beyond the
last byte are zero. -/
theorem encode_of_lastBytes {offset : Nat} {group out : List UInt8} {ns : List Nat}
    (hall : ∀ n ∈ ns, n < 64) (h : lastBytes offset group ns = .ok out) :
    encode out = ns.map symbol := by
  unfold lastBytes at h
  split at h
  · rename_i w x y z
    have hfour := encode_tripleOf (hall w (by simp)) (hall x (by simp)) (hall y (by simp))
      (hall z (by simp)) []
    rw [List.append_nil] at hfour
    rw [← Except.ok.inj h]
    exact hfour
  · rename_i w x y
    have hw : w < 64 := hall w (by simp)
    have hx : x < 64 := hall x (by simp)
    have hy : y < 64 := hall y (by simp)
    -- without `hzero` the last symbol could carry two bits that the writer would not put back
    split at h
    · rename_i hzero
      rw [← Except.ok.inj h, encode, toNat_ofNat (by omega), toNat_ofNat (by omega)]
      rw [show (w * 4 + x / 16) / 4 = w by omega,
        show (w * 4 + x / 16) % 4 * 16 + (x % 16 * 16 + y / 4) / 16 = x by omega,
        show (x % 16 * 16 + y / 4) % 16 * 4 = y by omega]
      rfl
    · exact absurd h (by simp)
  · rename_i w x
    have hw : w < 64 := hall w (by simp)
    have hx : x < 64 := hall x (by simp)
    split at h
    · rename_i hzero
      rw [← Except.ok.inj h, encode, toNat_ofNat (by omega)]
      rw [show (w * 4 + x / 16) / 4 = w by omega,
        show (w * 4 + x / 16) % 4 * 16 = x by omega]
      rfl
    · exact absurd h (by simp)
  · exact absurd h (by simp)

/-- The bytes of symbols. -/
theorem encodeChars_symbols (ns : List Nat) :
    Utf8.encodeChars (ns.map symbol) = ns.map symbolByte := by
  induction ns with
  | nil => rfl
  | cons n rest ih => rw [List.map_cons, encodeChars_symbol, ih, List.map_cons]

/-- A last group that is accepted is a written form. -/
theorem eq_encode_of_decodeLast {offset : Nat} {group out : List UInt8}
    (h : decodeLast offset group = .ok out) : group = Utf8.encodeChars (encode out) := by
  obtain ⟨⟨ns, padded⟩, hsextets, h⟩ := bind_eq_ok_iff.mp h
  simp only at h
  split at h
  · exact absurd h (by simp)
  split at h
  · exact absurd h (by simp)
  · rename_i hpadded
    rw [Option.not_isSome_iff_eq_none] at hpadded
    rw [hpadded] at hsextets
    obtain ⟨hgroup, hall⟩ := eq_symbols_of_lastSextets hsextets
    rw [encode_of_lastBytes hall h, encodeChars_symbols, hgroup]

/-- Symbols that are read as a last group give what the bytes of their sextets are. -/
theorem decodeLast_symbols {ns : List Nat} (hall : ∀ n ∈ ns, n < 64) (hlength : 2 ≤ ns.length)
    (offset : Nat) :
    decodeLast offset (ns.map symbolByte) = lastBytes offset (ns.map symbolByte) ns := by
  rw [decodeLast, lastSextets_symbols hall offset 0, ok_bind]
  simp only
  rw [if_neg (by omega), if_neg (by simp)]

/-! ## Reading and writing -/

/-- Up to four bytes are the last group. -/
theorem decodeFrom_few {offset : Nat} {group : List UInt8} (hnil : group ≠ [])
    (hfew : group.length ≤ 4) : decodeFrom offset group = decodeLast offset group := by
  rw [decodeFrom]
  · exact hnil
  · intro a b c d e rest hgroup
    rw [hgroup] at hfew
    simp only [List.length_cons] at hfew
    omega

/-- A group of four is read on its own and the rest behind it. -/
theorem decodeFrom_group {w x y z : Nat} (hw : w < 64) (hx : x < 64) (hy : y < 64) (hz : z < 64)
    {offset : Nat} {rest more : List UInt8} (hrest : decodeFrom (offset + 4) rest = .ok more) :
    decodeFrom offset (symbolByte w :: symbolByte x :: symbolByte y :: symbolByte z :: rest) =
      .ok (tripleOf w x y z ++ more) := by
  cases rest with
  -- a whole group at the end goes through the reader of the last group, which gives the same bytes
  | nil =>
    have hall : ∀ n ∈ [w, x, y, z], n < 64 := by simp [hw, hx, hy, hz]
    rw [decodeFrom] at hrest
    rw [← Except.ok.inj hrest, List.append_nil, decodeFrom_few (by simp) (by simp)]
    exact decodeLast_symbols hall (by simp) offset
  | cons e rest =>
    rw [decodeFrom]
    simp only [sextetAt_symbolByte hw, sextetAt_symbolByte hx, sextetAt_symbolByte hy,
      sextetAt_symbolByte hz, hrest, ok_bind, tripleOf, List.cons_append, List.nil_append]

/-- The written form is read back from every offset. -/
theorem decodeFrom_encode (bytes : List UInt8) (offset : Nat) :
    decodeFrom offset (Utf8.encodeChars (encode bytes)) = .ok bytes := by
  induction bytes using encode.induct generalizing offset with
  | case1 => rfl
  | case2 a =>
    have ha := a.toNat_lt
    have hall : ∀ n ∈ [a.toNat / 4, a.toNat % 4 * 16], n < 64 := by simp; omega
    have hlast := decodeLast_symbols hall (by simp) offset
    simp only [encode, encodeChars_symbol, encodeChars_nil]
    rw [decodeFrom_few (by simp) (by simp)]
    refine hlast.trans ?_
    rw [lastBytes, if_pos (by omega), ofNat_eq (a := a) (by omega)]
  | case3 a b =>
    have ha := a.toNat_lt
    have hb := b.toNat_lt
    have hall : ∀ n ∈ [a.toNat / 4, a.toNat % 4 * 16 + b.toNat / 16, b.toNat % 16 * 4], n < 64 := by
      simp; omega
    have hlast := decodeLast_symbols hall (by simp) offset
    simp only [encode, encodeChars_symbol, encodeChars_nil]
    rw [decodeFrom_few (by simp) (by simp)]
    refine hlast.trans ?_
    rw [lastBytes, if_pos (by omega), ofNat_eq (a := a) (by omega), ofNat_eq (a := b) (by omega)]
  | case4 a b c rest ih =>
    have ha := a.toNat_lt
    have hb := b.toNat_lt
    have hc := c.toNat_lt
    simp only [encode, encodeChars_symbol]
    rw [decodeFrom_group (by omega) (by omega) (by omega) (by omega) (ih (offset + 4)),
      tripleOf_sextets]
    rfl

/-- What is accepted from an offset on is a written form. -/
theorem eq_encode_of_decodeFrom {offset : Nat} {bytes out : List UInt8}
    (h : decodeFrom offset bytes = .ok out) : bytes = Utf8.encodeChars (encode out) := by
  induction offset, bytes using decodeFrom.induct generalizing out with
  | case1 offset =>
    rw [decodeFrom] at h
    rw [← Except.ok.inj h]
    rfl
  | case2 offset a b c d e rest ih =>
    rw [decodeFrom] at h
    obtain ⟨w, ha, h⟩ := bind_eq_ok_iff.mp h
    obtain ⟨x, hb, h⟩ := bind_eq_ok_iff.mp h
    obtain ⟨y, hc, h⟩ := bind_eq_ok_iff.mp h
    obtain ⟨z, hd, h⟩ := bind_eq_ok_iff.mp h
    obtain ⟨more, hmore, hout⟩ := bind_eq_ok_iff.mp h
    obtain ⟨rfl, hw⟩ := eq_symbolByte_of_sextetAt ha
    obtain ⟨rfl, hx⟩ := eq_symbolByte_of_sextetAt hb
    obtain ⟨rfl, hy⟩ := eq_symbolByte_of_sextetAt hc
    obtain ⟨rfl, hz⟩ := eq_symbolByte_of_sextetAt hd
    have hsplit : out = tripleOf w x y z ++ more := (Except.ok.inj hout).symm
    rw [hsplit, encode_tripleOf hw hx hy hz, ih hmore]
    simp only [encodeChars_symbol]
  | case3 offset group hnil hgroup =>
    rw [decodeFrom] at h
    · exact eq_encode_of_decodeLast h
    · exact hnil
    · exact hgroup

/-- No written form has one symbol more than its groups of four. -/
theorem length_encode_mod (bytes : List UInt8) :
    (Utf8.encodeChars (encode bytes)).length % 4 ≠ 1 := by
  induction bytes using encode.induct with
  | case1 => simp [encode]
  | case2 a => simp [encode]
  | case3 a b => simp [encode]
  | case4 a b c rest ih =>
    simp only [encode, encodeChars_symbol, List.length_cons]
    omega

/-- **Base64 round trip, exactly.**  A text is read as bytes if and only if it is their written
form. -/
theorem decode_eq_ok_iff {bytes out : List UInt8} :
    decode bytes = .ok out ↔ bytes = Utf8.encodeChars (encode out) := by
  constructor
  · intro h
    unfold decode at h
    split at h
    · exact absurd h (by simp)
    · exact eq_encode_of_decodeFrom h
  · intro h
    have hstray : strayEnd? bytes = none := by
      rw [strayEnd?, h, if_neg (length_encode_mod out)]
    rw [decode, hstray, h]
    exact decodeFrom_encode out 0

end PinBoard.Base64Url
