import Culprit.Text.Escaped
import Mathlib.Data.List.TakeWhile

/-!
Quoted text can be read back. Reading one character of an escaped text gives the character that was
escaped and what follows it, so texts with the same quoted form are the same, also when something
follows the closing quote.
-/

namespace Culprit.Text

/-! ### Digits -/

namespace Hex

/-- Every digit stands for itself and is not a brace. -/
theorem digitValue?_digitChar {n : Nat} (h : n < 16) :
    digitValue? n.digitChar.toLower = some n ∧ n.digitChar.toLower ≠ '\x7d' := by
  decide +revert

def accumulate (acc : Option Nat) (c : Char) : Option Nat :=
  acc.bind fun n => (digitValue? c).map (16 * n + ·)

theorem accumulate_hexDigits (n : Nat) :
    (Escaped.hexDigits n).foldl accumulate (some 0) = some n := by
  induction n using Nat.strongRecOn with
  | ind n ih =>
      rw [Escaped.hexDigits, Nat.toDigits_eq_if (by decide)]
      split
      · next hsmall => simp [accumulate, (digitValue?_digitChar hsmall).1]
      · next hlarge =>
          have hrest := ih (n / 16) (by omega)
          rw [Escaped.hexDigits] at hrest
          rw [List.map_append, List.foldl_append, hrest]
          have hlast := (digitValue?_digitChar (Nat.mod_lt n (by decide : 0 < 16))).1
          simp [accumulate, hlast, Nat.div_add_mod]

theorem hexDigits_ne_nil (n : Nat) : Escaped.hexDigits n ≠ [] := by
  rw [Escaped.hexDigits, Nat.toDigits_eq_if (by decide)]
  split <;> simp

theorem toNat?_hexDigits (n : Nat) : toNat? (Escaped.hexDigits n) = some n := by
  rw [toNat?, if_neg (by simp [hexDigits_ne_nil])]
  exact accumulate_hexDigits n

theorem ne_brace_of_mem_hexDigits {n : Nat} {c : Char} (h : c ∈ Escaped.hexDigits n) :
    c ≠ '\x7d' := by
  induction n using Nat.strongRecOn with
  | ind n ih =>
      rw [Escaped.hexDigits, Nat.toDigits_eq_if (by decide)] at h
      split at h
      · next hsmall =>
          obtain rfl : c = n.digitChar.toLower := by simpa using h
          exact (digitValue?_digitChar hsmall).2
      · next hlarge =>
          rw [List.map_append, List.mem_append] at h
          rcases h with h | h
          · exact ih (n / 16) (by omega) h
          · obtain rfl : c = (n % 16).digitChar.toLower := by simpa using h
            exact (digitValue?_digitChar (Nat.mod_lt n (by decide))).2

end Hex

/-! ### One character -/

namespace Escaped

/-- What the letter after a backslash stands for. -/
def named? : Char → Option Char
  | '"' => some '"'
  | '\\' => some '\\'
  | 'n' => some '\n'
  | 'r' => some '\r'
  | 't' => some '\t'
  | '0' => some '\x00'
  | _ => none

/-- The character that an escaped text begins with, and what follows it. -/
def read? : List Char → Option (Char × List Char)
  | '\\' :: 'u' :: cs =>
    (Hex.toNat? (cs.tail.takeWhile (· ≠ '\x7d'))).map fun n =>
      (Char.ofNat n, (cs.tail.dropWhile (· ≠ '\x7d')).tail)
  | '\\' :: c :: cs => (named? c).map (·, cs)
  | c :: cs => some (c, cs)
  | [] => none

theorem read?_plain {c : Char} (hc : c ≠ '\\') (cs : List Char) :
    read? (c :: cs) = some (c, cs) := by
  rw [read?]
  · exact fun _ heq _ => hc heq
  · exact fun _ _ heq _ => hc heq

theorem read?_escape (c : Char) (cs : List Char) : read? (escape c ++ cs) = some (c, cs) := by
  rw [escape]
  split_ifs with _ hslash _ _ _ _ hprintable
  -- The characters with a letter of their own.
  iterate 6 (subst c; rfl)
  · exact read?_plain hslash cs
  · have hdigits : ∀ d ∈ hexDigits c.toNat, decide (d ≠ '\x7d') = true :=
      fun d hd => decide_eq_true (Hex.ne_brace_of_mem_hexDigits hd)
    simp only [List.cons_append, List.append_assoc, List.nil_append, read?, List.tail_cons]
    rw [List.takeWhile_append_of_pos hdigits, List.dropWhile_append_of_pos hdigits]
    simp [Hex.toNat?_hexDigits, Char.ofNat_toNat]

theorem escape_append_inj {c d : Char} {cs ds : List Char} (h : escape c ++ cs = escape d ++ ds) :
    c = d ∧ cs = ds := by
  have hread := congrArg read? h
  rw [read?_escape, read?_escape] at hread
  simpa using hread

/-- No character is escaped to a text that begins with a quote. -/
theorem escape_append_ne {c : Char} {cs ds : List Char} : escape c ++ cs ≠ '"' :: ds := by
  intro h
  have hread := congrArg read? h
  rw [read?_escape, read?_plain (by decide)] at hread
  obtain ⟨rfl, -⟩ : c = '"' ∧ cs = ds := by simpa using hread
  simp [escape] at h

/-! ### Whole texts -/

theorem flatMap_escape_inj {cs ds xs ys : List Char}
    (h : cs.flatMap escape ++ '"' :: xs = ds.flatMap escape ++ '"' :: ys) : cs = ds ∧ xs = ys := by
  induction cs generalizing ds with
  | nil =>
      cases ds with
      | nil => simpa using h
      | cons d ds =>
          rw [List.flatMap_cons, List.append_assoc] at h
          exact absurd h.symm escape_append_ne
  | cons c cs ih =>
      cases ds with
      | nil =>
          rw [List.flatMap_cons, List.append_assoc] at h
          exact absurd h escape_append_ne
      | cons d ds =>
          simp only [List.flatMap_cons, List.append_assoc] at h
          obtain ⟨rfl, hrest⟩ := escape_append_inj h
          obtain ⟨rfl, hafter⟩ := ih hrest
          exact ⟨rfl, hafter⟩

theorem quote_append_inj {s t : String} {xs ys : List Char}
    (h : (quote s).toList ++ xs = (quote t).toList ++ ys) : s = t ∧ xs = ys := by
  simp only [quote, String.toList_ofList, List.cons_append, List.append_assoc,
    List.nil_append, List.cons.injEq, true_and] at h
  obtain ⟨hsame, hafter⟩ := flatMap_escape_inj h
  exact ⟨String.toList_inj.mp hsame, hafter⟩

end Escaped

end Culprit.Text
