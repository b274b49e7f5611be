/-
  File:      LocalSend/Lib/Base64.lean
  Subject:   BASE64 WITH THE URL ALPHABET AND NO PADDING. Nothing here names a program.

  * `sextets`, `letter` -- three bytes as four numbers below 64, and their letters;
  * `encode`, `decode` -- texts of letters; a text that no bytes encode to is refused;
  * `decode_encode` -- **what was encoded is read back**; `encode_decode` -- nothing else is read.
-/
import Mathlib.Data.List.Basic

namespace LocalSend.Lib.Base64

/-! ## 1. Sextets -/

/-- Three bytes are four numbers below 64; the last group may be shorter. -/
def sextets : List UInt8 → List Nat
  | [] => []
  | [a] => [a.toNat / 4, a.toNat % 4 * 16]
  | [a, b] => [a.toNat / 4, a.toNat % 4 * 16 + b.toNat / 16, b.toNat % 16 * 4]
  | a :: b :: c :: rest =>
    a.toNat / 4 :: (a.toNat % 4 * 16 + b.toNat / 16) :: (b.toNat % 16 * 4 + c.toNat / 64) ::
      (c.toNat % 64) :: sextets rest

/-- The bytes of a list of sextets. A last group of one sextet, or one with bits left over, is
    no encoding. -/
def ofSextets : List Nat → Option (List UInt8)
  | [] => some []
  | [_] => none
  | [p, q] => if q % 16 = 0 then some [.ofNat (p * 4 + q / 16)] else none
  | [p, q, r] =>
    if r % 4 = 0 then some [.ofNat (p * 4 + q / 16), .ofNat (q % 16 * 16 + r / 4)] else none
  | p :: q :: r :: s :: rest =>
    (ofSextets rest).map fun bytes =>
      .ofNat (p * 4 + q / 16) :: .ofNat (q % 16 * 16 + r / 4) :: .ofNat (r % 4 * 64 + s) :: bytes

theorem ofNat_eq {n : Nat} {a : UInt8} (h : n = a.toNat) : UInt8.ofNat n = a := by
  rw [h, UInt8.ofNat_toNat]

theorem ofSextets_sextets (bytes : List UInt8) : ofSextets (sextets bytes) = some bytes := by
  induction bytes using sextets.induct with
  | case1 => rfl
  | case2 a =>
      have ha := a.toNat_lt
      have h1 : a.toNat / 4 * 4 + a.toNat % 4 * 16 / 16 = a.toNat := by omega
      have h2 : a.toNat % 4 * 16 % 16 = 0 := by omega
      simp only [sextets, ofSextets, if_pos h2, ofNat_eq h1]
  | case3 a b =>
      have ha := a.toNat_lt
      have hb := b.toNat_lt
      have h1 : a.toNat / 4 * 4 + (a.toNat % 4 * 16 + b.toNat / 16) / 16 = a.toNat := by omega
      have h2 : (a.toNat % 4 * 16 + b.toNat / 16) % 16 * 16 + b.toNat % 16 * 4 / 4 = b.toNat := by
        omega
      have h3 : b.toNat % 16 * 4 % 4 = 0 := by omega
      simp only [sextets, ofSextets, if_pos h3, ofNat_eq h1, ofNat_eq h2]
  | case4 a b c rest ih =>
      have ha := a.toNat_lt
      have hb := b.toNat_lt
      have hc := c.toNat_lt
      have h1 : a.toNat / 4 * 4 + (a.toNat % 4 * 16 + b.toNat / 16) / 16 = a.toNat := by omega
      have h2 : (a.toNat % 4 * 16 + b.toNat / 16) % 16 * 16 +
          (b.toNat % 16 * 4 + c.toNat / 64) / 4 = b.toNat := by omega
      have h3 : (b.toNat % 16 * 4 + c.toNat / 64) % 4 * 64 + c.toNat % 64 = c.toNat := by omega
      simp only [sextets, ofSextets, ih, Option.map_some, ofNat_eq h1, ofNat_eq h2, ofNat_eq h3]

theorem sextets_lt (bytes : List UInt8) : ∀ n ∈ sextets bytes, n < 64 := by
  induction bytes using sextets.induct with
  | case1 => nofun
  | case2 a =>
      have ha := a.toNat_lt
      simp only [sextets, List.forall_mem_cons, List.not_mem_nil, false_implies, implies_true,
        and_true]
      omega
  | case3 a b =>
      have ha := a.toNat_lt
      have hb := b.toNat_lt
      simp only [sextets, List.forall_mem_cons, List.not_mem_nil, false_implies, implies_true,
        and_true]
      omega
  | case4 a b c rest ih =>
      have ha := a.toNat_lt
      have hb := b.toNat_lt
      have hc := c.toNat_lt
      simp only [sextets, List.forall_mem_cons]
      exact ⟨by omega, by omega, by omega, by omega, ih⟩

theorem toNat_ofNat {n : Nat} (h : n < 256) : (UInt8.ofNat n).toNat = n := by
  rw [UInt8.toNat_ofNat', Nat.mod_eq_of_lt h]

/-- Sextets that read as bytes are the sextets of these bytes. -/
theorem sextets_ofSextets {ns : List Nat} {bytes : List UInt8} (hns : ∀ n ∈ ns, n < 64)
    (h : ofSextets ns = some bytes) : sextets bytes = ns := by
  induction ns using ofSextets.induct generalizing bytes with
  | case1 =>
      cases h
      rfl
  | case2 => cases h
  | case3 p q hq =>
      simp only [List.forall_mem_cons] at hns
      obtain ⟨hp, hq', _⟩ := hns
      rw [ofSextets, if_pos hq] at h
      cases h
      have ha := toNat_ofNat (n := p * 4 + q / 16) (by omega)
      have h1 : (p * 4 + q / 16) / 4 = p := by omega
      have h2 : (p * 4 + q / 16) % 4 * 16 = q := by omega
      rw [sextets, ha, h1, h2]
  | case4 p q hq =>
      rw [ofSextets, if_neg hq] at h
      cases h
  | case5 p q r hr =>
      simp only [List.forall_mem_cons] at hns
      obtain ⟨hp, hq', hr', _⟩ := hns
      rw [ofSextets, if_pos hr] at h
      cases h
      have ha := toNat_ofNat (n := p * 4 + q / 16) (by omega)
      have hb := toNat_ofNat (n := q % 16 * 16 + r / 4) (by omega)
      have h1 : (p * 4 + q / 16) / 4 = p := by omega
      have h2 : (p * 4 + q / 16) % 4 * 16 + (q % 16 * 16 + r / 4) / 16 = q := by omega
      have h3 : (q % 16 * 16 + r / 4) % 16 * 4 = r := by omega
      rw [sextets, ha, hb, h1, h2, h3]
  | case6 p q r hr =>
      rw [ofSextets, if_neg hr] at h
      cases h
  | case7 p q r s rest ih =>
      simp only [List.forall_mem_cons] at hns
      obtain ⟨hp, hq', hr', hs', hrest⟩ := hns
      rw [ofSextets] at h
      obtain ⟨more, hmore, rfl⟩ := Option.map_eq_some_iff.mp h
      have ha := toNat_ofNat (n := p * 4 + q / 16) (by omega)
      have hb := toNat_ofNat (n := q % 16 * 16 + r / 4) (by omega)
      have hc := toNat_ofNat (n := r % 4 * 64 + s) (by omega)
      have h1 : (p * 4 + q / 16) / 4 = p := by omega
      have h2 : (p * 4 + q / 16) % 4 * 16 + (q % 16 * 16 + r / 4) / 16 = q := by omega
      have h3 : (q % 16 * 16 + r / 4) % 16 * 4 + (r % 4 * 64 + s) / 64 = r := by omega
      have h4 : (r % 4 * 64 + s) % 64 = s := by omega
      rw [sextets, ha, hb, hc, h1, h2, h3, h4, ih hrest hmore]

/-! ## 2. Letters -/

def alphabet : List Char :=
  "ABCDEFGHIJKLMNOPQRSTUVWXYZabcdefghijklmnopqrstuvwxyz0123456789-_".toList

def letter (n : Nat) : Char := alphabet.getD n 'A'

def value (c : Char) : Option Nat := alphabet.idxOf? c

theorem value_letter {n : Nat} (h : n < 64) : value (letter n) = some n := by
  have hall : ∀ n : Fin 64, value (letter n) = some n.val := by decide +kernel
  exact hall ⟨n, h⟩

theorem mapM_value {ns : List Nat} (h : ∀ n ∈ ns, n < 64) :
    (ns.map letter).mapM value = some ns := by
  induction ns with
  | nil => rfl
  | cons n ns ih =>
      rw [List.forall_mem_cons] at h
      simp [List.mapM_cons, value_letter h.1, ih h.2]

/-- A letter has one value. -/
theorem letter_value {c : Char} {n : Nat} (h : value c = some n) : letter n = c ∧ n < 64 := by
  obtain ⟨hn, heq, _⟩ := List.idxOf?_eq_some_iff.mp h
  have hlength : alphabet.length = 64 := by decide
  exact ⟨by rw [letter, List.getD_eq_getElem?_getD, List.getElem?_eq_getElem hn, Option.getD_some,
    heq], hlength ▸ hn⟩

theorem map_letter {cs : List Char} {ns : List Nat} (h : cs.mapM value = some ns) :
    ns.map letter = cs ∧ ∀ n ∈ ns, n < 64 := by
  induction cs generalizing ns with
  | nil =>
      cases h
      exact ⟨rfl, nofun⟩
  | cons c cs ih =>
      rw [List.mapM_cons] at h
      obtain ⟨n, hn, h⟩ := Option.bind_eq_some_iff.mp h
      obtain ⟨ms, hms, h⟩ := Option.bind_eq_some_iff.mp h
      cases h
      obtain ⟨hletter, hlt⟩ := letter_value hn
      obtain ⟨hmap, hall⟩ := ih hms
      exact ⟨by rw [List.map_cons, hletter, hmap], List.forall_mem_cons.mpr ⟨hlt, hall⟩⟩

/-! ## 3. Texts -/

def encode (bytes : List UInt8) : String := String.ofList ((sextets bytes).map letter)

def decode (text : String) : Option (List UInt8) := (text.toList.mapM value).bind ofSextets

/-- **What was encoded is read back.** -/
theorem decode_encode (bytes : List UInt8) : decode (encode bytes) = some bytes := by
  rw [decode, encode, String.toList_ofList, mapM_value (sextets_lt bytes), Option.bind_some,
    ofSextets_sextets]

/-- **What is read is what was written**: only the encoding of some bytes reads as them. -/
theorem encode_decode {text : String} {bytes : List UInt8} (h : decode text = some bytes) :
    encode bytes = text := by
  obtain ⟨ns, hns, hbytes⟩ := Option.bind_eq_some_iff.mp h
  obtain ⟨hmap, hlt⟩ := map_letter hns
  rw [encode, sextets_ofSextets hlt hbytes, hmap, String.ofList_toList]

theorem letter_mem (n : Nat) : letter n ∈ alphabet := by
  rw [letter, List.getD_eq_getElem?_getD]
  cases h : alphabet[n]? with
  | none => decide
  | some c => exact List.mem_of_getElem? h

/-- Only letters of the alphabet are written. -/
theorem not_mem_encode {c : Char} (h : c ∉ alphabet) (bytes : List UInt8) :
    c ∉ (encode bytes).toList := by
  rw [encode, String.toList_ofList]
  intro hc
  obtain ⟨n, _, rfl⟩ := List.mem_map.mp hc
  exact h (letter_mem n)

example : encode [0xfb, 0xef, 0xbe, 0x4d] = "----TQ" := by decide +kernel

end LocalSend.Lib.Base64
