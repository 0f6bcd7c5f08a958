import Culprit.Text.Utf8
import Mathlib.Tactic.Common

/-!
Text can be read back from its bytes. Each character is the first piece of its bytes, whatever
follows, and only a line feed or a carriage return has the byte of that name.
-/

namespace Culprit.Text.Utf8

/-! ### The bytes of an array -/

theorem toList_eq (bytes : ByteArray) : bytes.toList = bytes.data.toList := by
  have hloop : ∀ n i r, bytes.size - i = n →
      ByteArray.toList.loop bytes i r = r.reverse ++ bytes.data.toList.drop i := by
    intro n
    induction n with
    | zero =>
        intro i r hn
        rw [ByteArray.toList.loop, if_neg (by omega), List.drop_eq_nil_of_le, List.append_nil]
        exact Nat.sub_eq_zero_iff_le.mp hn
    | succ n ih =>
        intro i r hn
        have hi : i < bytes.data.toList.length := by
          show i < bytes.size
          omega
        rw [ByteArray.toList.loop, if_pos (by omega), ih (i + 1) _ (by omega),
          List.drop_eq_getElem_cons hi, List.reverse_cons, List.append_assoc]
        rw [show bytes.get! i = bytes.data.toList[i] from getElem!_pos bytes.data i hi]
        rfl
  exact hloop _ 0 [] rfl

theorem toList_append (bytes bytes' : ByteArray) :
    (bytes ++ bytes').toList = bytes.toList ++ bytes'.toList := by
  rw [toList_eq, toList_eq, toList_eq, ByteArray.toList_data_append]

/-- The bytes of characters. -/
def encode (cs : List Char) : List UInt8 :=
  cs.flatMap String.utf8EncodeChar

theorem toList_toUTF8 (s : String) : s.toUTF8.toList = encode s.toList := by
  rw [toList_eq, show s.toUTF8 = s.toByteArray from rfl, ← String.utf8Encode_toList,
    List.utf8Encode, List.toList_data_toByteArray]
  rfl

/-! ### One character -/

theorem continuation_zero (lo hi acc taken : Nat) (bytes : List UInt8) :
    continuation 0 lo hi acc taken bytes = (some acc, taken) := by
  cases bytes <;> rfl

theorem continuation_succ {lo hi : Nat} {b : UInt8} (hlo : lo ≤ b.toNat) (hhi : b.toNat ≤ hi)
    (more acc taken : Nat) (bytes : List UInt8) :
    continuation (more + 1) lo hi acc taken (b :: bytes) =
      continuation more 0x80 0xBF (acc * 64 + (b.toNat - 0x80)) (taken + 1) bytes := by
  rw [continuation, if_pos ⟨hlo, hhi⟩]

theorem lead?_two : ∀ n < 30, lead? (n + 2 + 192) = some (1, 0x80, 0xBF, n + 2) := by
  decide

theorem lead?_three : ∀ n < 16, lead? (n + 224) =
    some (2, if n = 0 then 0xA0 else 0x80, if n = 13 then 0x9F else 0xBF, n) := by
  decide

theorem lead?_four : ∀ n < 5, lead? (n + 240) =
    some (3, if n = 0 then 0x90 else 0x80, if n = 4 then 0x8F else 0xBF, n) := by
  decide

/-- A byte that announces others. -/
theorem first_of_lead {b : UInt8} {more lo hi acc : Nat} (hb : 0x80 ≤ b.toNat)
    (hlead : lead? b.toNat = some (more, lo, hi, acc)) (bytes : List UInt8) :
    first b bytes = ((continuation more lo hi acc 0 bytes).1.map Char.ofNat,
      (continuation more lo hi acc 0 bytes).2) := by
  rw [first, if_neg (by omega), hlead]

theorem toNat_ofNat {n : Nat} (hn : n < 256) : (UInt8.ofNat n).toNat = n :=
  Nat.mod_eq_of_lt hn

section Pieces

variable {v : Nat} (rest : List UInt8)

theorem first_one (hv : v ≤ 127) : first (UInt8.ofNat v) rest = (some (Char.ofNat v), 0) := by
  rw [first, toNat_ofNat (by omega), if_pos (by omega)]

theorem first_two (hlow : 127 < v) (hv : v ≤ 2047) :
    first (UInt8.ofNat (v / 64 % 32 + 192)) (UInt8.ofNat (v % 64 + 128) :: rest) =
      (some (Char.ofNat v), 1) := by
  have hfirst := toNat_ofNat (n := v / 64 % 32 + 192) (by omega)
  have hlast := toNat_ofNat (n := v % 64 + 128) (by omega)
  have hlead := lead?_two (v / 64 % 32 - 2) (by omega)
  rw [show v / 64 % 32 - 2 + 2 = v / 64 by omega] at hlead
  rw [first_of_lead (by omega) (by rw [hfirst, ← hlead]; congr 1; omega),
    continuation_succ (by omega) (by omega), continuation_zero, hlast]
  rw [show v / 64 * 64 + (v % 64 + 128 - 0x80) = v by omega, Option.map_some]

/-- The numbers of surrogates are left out. -/
theorem first_three (hlow : 2047 < v) (hv : v ≤ 65535) (hvalid : v < 0xD800 ∨ 0xDFFF < v) :
    first (UInt8.ofNat (v / 4096 % 16 + 224))
        (UInt8.ofNat (v / 64 % 64 + 128) :: UInt8.ofNat (v % 64 + 128) :: rest) =
      (some (Char.ofNat v), 2) := by
  have hfirst := toNat_ofNat (n := v / 4096 % 16 + 224) (by omega)
  have hmiddle := toNat_ofNat (n := v / 64 % 64 + 128) (by omega)
  have hlast := toNat_ofNat (n := v % 64 + 128) (by omega)
  have hlead := lead?_three (v / 4096 % 16) (by omega)
  rw [first_of_lead (by omega) (by rw [hfirst, hlead]),
    continuation_succ (by split <;> omega) (by split <;> omega),
    continuation_succ (by omega) (by omega), continuation_zero, hlast, hmiddle]
  rw [show (v / 4096 % 16 * 64 + (v / 64 % 64 + 128 - 0x80)) * 64 + (v % 64 + 128 - 0x80) = v by
    omega, Option.map_some]

theorem first_four (hlow : 65535 < v) (hv : v < 0x110000) :
    first (UInt8.ofNat (v / 262144 % 8 + 240))
        (UInt8.ofNat (v / 4096 % 64 + 128) :: UInt8.ofNat (v / 64 % 64 + 128) ::
          UInt8.ofNat (v % 64 + 128) :: rest) = (some (Char.ofNat v), 3) := by
  have hfirst := toNat_ofNat (n := v / 262144 % 8 + 240) (by omega)
  have hsecond := toNat_ofNat (n := v / 4096 % 64 + 128) (by omega)
  have hmiddle := toNat_ofNat (n := v / 64 % 64 + 128) (by omega)
  have hlast := toNat_ofNat (n := v % 64 + 128) (by omega)
  have hlead := lead?_four (v / 262144 % 8) (by omega)
  rw [first_of_lead (by omega) (by rw [hfirst, hlead]),
    continuation_succ (by split <;> omega) (by split <;> omega),
    continuation_succ (by omega) (by omega), continuation_succ (by omega) (by omega),
    continuation_zero, hlast, hmiddle, hsecond]
  rw [show ((v / 262144 % 8 * 64 + (v / 4096 % 64 + 128 - 0x80)) * 64 +
    (v / 64 % 64 + 128 - 0x80)) * 64 + (v % 64 + 128 - 0x80) = v by omega, Option.map_some]

end Pieces

/-- A character is the first piece of its bytes, whatever follows. -/
theorem first_encode (c : Char) (rest : List UInt8) :
    ∃ b tail, String.utf8EncodeChar c = b :: tail ∧
      first b (tail ++ rest) = (some c, tail.length) := by
  have hvalid : c.toNat < 0xD800 ∨ 0xDFFF < c.toNat ∧ c.toNat < 0x110000 := c.valid
  have hc : Char.ofNat c.toNat = c := Char.ofNat_toNat c
  rw [String.utf8EncodeChar, show c.val.toNat = c.toNat from rfl]
  generalize c.toNat = v at hvalid hc
  subst hc
  -- One to four bytes, by the size of the number.
  split_ifs with hone htwo hthree
  · exact ⟨_, [], rfl, first_one rest hone⟩
  · exact ⟨_, _, rfl, first_two rest (by omega) htwo⟩
  · exact ⟨_, _, rfl, first_three rest (by omega) hthree (by omega)⟩
  · exact ⟨_, _, rfl, first_four rest (by omega) (by omega)⟩

/-- A byte of the first half of them all stands for itself. -/
theorem eq_of_mem_encodeChar {c : Char} {b : UInt8} (h : b ∈ String.utf8EncodeChar c)
    (hb : b.toNat < 0x80) : b.toNat = c.toNat := by
  have hhigh {n : Nat} (hn : n < 256) (hbig : 0x80 ≤ n) (hmem : b = UInt8.ofNat n) : False := by
    rw [hmem, toNat_ofNat hn] at hb
    omega
  rw [String.utf8EncodeChar, show c.val.toNat = c.toNat from rfl] at h
  split at h
  · next hone =>
      rw [List.mem_singleton.mp h, toNat_ofNat (by omega)]
  · split at h
    · simp only [List.mem_cons, List.not_mem_nil, or_false] at h
      rcases h with h | h <;> exact (hhigh (by omega) (by omega) h).elim
    · split at h
      · simp only [List.mem_cons, List.not_mem_nil, or_false] at h
        rcases h with h | h | h <;> exact (hhigh (by omega) (by omega) h).elim
      · simp only [List.mem_cons, List.not_mem_nil, or_false] at h
        rcases h with h | h | h | h <;> exact (hhigh (by omega) (by omega) h).elim

/-! ### Whole texts -/

theorem encode_append (cs cs' : List Char) : encode (cs ++ cs') = encode cs ++ encode cs' :=
  List.flatMap_append

theorem mem_of_mem_encode {cs : List Char} {b : UInt8} (h : b ∈ encode cs) (hb : b.toNat < 0x80) :
    Char.ofNat b.toNat ∈ cs := by
  obtain ⟨c, hc, hmem⟩ := List.mem_flatMap.mp h
  rwa [eq_of_mem_encodeChar hmem hb, Char.ofNat_toNat]

theorem piecesAux_append (tail rest : List UInt8) :
    piecesAux tail.length (tail ++ rest) = piecesAux 0 rest := by
  induction tail with
  | nil => rfl
  | cons b tail ih => exact ih

/-- Text can be read back from its bytes. -/
theorem decode?_encode (cs : List Char) : decode? (encode cs) = some cs := by
  show (piecesAux 0 (encode cs)).mapM (·.1) = some cs
  induction cs with
  | nil => rfl
  | cons c cs ih =>
      obtain ⟨b, tail, hbytes, hfirst⟩ := first_encode c (encode cs)
      have hencode : encode (c :: cs) = b :: (tail ++ encode cs) := by
        rw [encode, List.flatMap_cons, hbytes]
        rfl
      rw [hencode, piecesAux, hfirst]
      show ((some c, tail.length + 1) :: piecesAux tail.length (tail ++ encode cs)).mapM (·.1) = _
      rw [piecesAux_append, List.mapM_cons, ih]
      rfl

end Culprit.Text.Utf8
