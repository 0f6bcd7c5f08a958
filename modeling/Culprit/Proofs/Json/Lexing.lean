import Culprit.Json.Token
import Culprit.Json.Value
import Mathlib.Data.List.Forall2

/-!
Texts that the lexer reads as given tokens. A mark or a quoted text is over with its last character,
whatever follows; a number or a word is over where a character follows that cannot go on with it.
Texts are put together from such pieces, and so are their tokens.
-/

namespace Culprit.Json

/-- With this text a number or a word before it is over. -/
def Ends (cs : List Char) : Prop :=
  ∀ c ∈ cs.head?, isNumberChar c = false ∧ isWordChar c = false

/-- Between tokens these characters are read as these tokens, whatever follows. -/
def Closes (cs : List Char) (ts : List Token) : Prop :=
  ∀ read rest,
    tokensFrom? read .between (cs ++ rest) = tokensFrom? (ts.reverse ++ read) .between rest

/-- The same where what follows ends a number or a word. -/
def Reads (cs : List Char) (ts : List Token) : Prop :=
  ∀ read rest, Ends rest →
    tokensFrom? read .between (cs ++ rest) = tokensFrom? (ts.reverse ++ read) .between rest

section Pieces

variable {cs cs' rest : List Char} {ts ts' : List Token} {t : Token} {c : Char} {m m' : Mode}

theorem ends_nil : Ends [] := by
  simp [Ends]

theorem ends_cons (hnumber : isNumberChar c = false) (hword : isWordChar c = false) :
    Ends (c :: cs) := by
  simp [Ends, hnumber, hword]

theorem Ends.append (h : Ends cs) (h' : Ends cs') : Ends (cs ++ cs') := by
  cases cs with
  | nil => exact h'
  | cons c cs => exact h

theorem Closes.reads (h : Closes cs ts) : Reads cs ts :=
  fun read rest _ => h read rest

theorem closes_nil : Closes [] [] :=
  fun _ _ => rfl

theorem Closes.append_reads (h : Closes cs ts) (h' : Reads cs' ts') :
    Reads (cs ++ cs') (ts ++ ts') := by
  intro read rest hrest
  rw [List.append_assoc, h, h' _ _ hrest, List.reverse_append, List.append_assoc]

theorem Closes.append (h : Closes cs ts) (h' : Closes cs' ts') :
    Closes (cs ++ cs') (ts ++ ts') := by
  intro read rest
  rw [List.append_assoc, h, h', List.reverse_append, List.append_assoc]

theorem Reads.append (h : Reads cs ts) (h' : Reads cs' ts') (hends : Ends cs') :
    Reads (cs ++ cs') (ts ++ ts') := by
  intro read rest hrest
  rw [List.append_assoc, h _ _ (hends.append hrest), h' _ _ hrest, List.reverse_append,
    List.append_assoc]

/-- Something follows that is over with its last character. -/
theorem Reads.append_closes (h : Reads cs ts) (h' : Closes (c :: cs') ts')
    (hends : Ends (c :: cs')) :
    Closes (cs ++ c :: cs') (ts ++ ts') := by
  intro read rest
  rw [List.append_assoc, h _ _ (by exact hends), h', List.reverse_append, List.append_assoc]

theorem tokensFrom?_step (h : step? m c = some (ts, m')) (read : List Token) (cs : List Char) :
    tokensFrom? read m (c :: cs) = tokensFrom? (ts.reverse ++ read) m' cs := by
  rw [tokensFrom?, h]

/-! ### Marks and blanks -/

theorem closes_mark (h : start? c = some ([t], .between)) : Closes [c] [t] := by
  have hstep : step? .between c = some ([t], .between) := h
  exact fun read rest => tokensFrom?_step hstep read rest

theorem ends_blank (h : isBlank c = true) : Ends (c :: cs) := by
  have hc : c = ' ' ∨ c = '\t' ∨ c = '\n' ∨ c = '\r' := by
    simpa [isBlank, or_assoc] using h
  rcases hc with rfl | rfl | rfl | rfl <;> exact ends_cons rfl rfl

theorem closes_blanks (h : ∀ c ∈ cs, isBlank c = true) : Closes cs [] := by
  induction cs with
  | nil => exact closes_nil
  | cons c cs ih =>
      obtain ⟨hc, hcs⟩ := List.forall_mem_cons.mp h
      intro read rest
      have hstep : step? .between c = some ([], .between) := by
        rw [step?, start?, if_pos hc]
      exact (tokensFrom?_step hstep read _).trans (ih hcs read rest)

/-! ### Numbers and words -/

/-- A number or a word is complete where nothing goes on with it. -/
theorem tokensFrom?_over (hfinish : finish? m = some ts) (read : List Token) (hrest : Ends rest) :
    tokensFrom? read m rest = tokensFrom? (ts.reverse ++ read) .between rest := by
  cases rest with
  | nil =>
      rw [tokensFrom?, tokensFrom?, hfinish]
      simp [finish?]
  | cons c rest =>
      obtain ⟨hnumber, hword⟩ := hrest c rfl
      have hstep : step? m c = (start? c).map fun next => (ts ++ next.1, next.2) := by
        cases m with
        | between =>
            obtain rfl := Option.some.inj hfinish
            simp [step?]
        | word read =>
            obtain ⟨t, ht, rfl⟩ := Option.map_eq_some_iff.mp hfinish
            rw [step?, if_neg (by simp [hword]), ht]
            cases start? c <;> rfl
        | number read =>
            obtain ⟨t, ht, rfl⟩ := Option.map_eq_some_iff.mp hfinish
            rw [step?, if_neg (by simp [hnumber]), ht]
            cases start? c <;> rfl
        | _ => cases hfinish
      rw [tokensFrom?, tokensFrom?, hstep, show step? .between c = start? c from rfl]
      rcases start? c with _ | ⟨ts', next⟩
      · rfl
      · simp

/-- The tokens before have no influence. -/
theorem tokensFrom?_read (read : List Token) (m : Mode) (cs : List Char) :
    tokensFrom? read m cs = (tokensFrom? [] m cs).map (read.reverse ++ ·) := by
  induction cs generalizing read m with
  | nil => cases h : finish? m <;> simp [tokensFrom?, h]
  | cons c cs ih =>
      rw [tokensFrom?, tokensFrom?]
      rcases step? m c with _ | ⟨ts, next⟩
      · rfl
      · simp only
        rw [ih (ts.reverse ++ read), ih (ts.reverse ++ [])]
        cases tokensFrom? [] next cs <;> simp

/-- What is read as these tokens to its end is so in front of a text that ends it. -/
theorem tokensFrom?_append (h : tokensFrom? [] m cs = some ts) (read : List Token)
    (hrest : Ends rest) :
    tokensFrom? read m (cs ++ rest) = tokensFrom? (ts.reverse ++ read) .between rest := by
  induction cs generalizing m ts read with
  | nil =>
      obtain ⟨ts', hfinish, hts⟩ := Option.map_eq_some_iff.mp h
      obtain rfl : ts' = ts := by simpa using hts
      exact tokensFrom?_over hfinish read hrest
  | cons c cs ih =>
      rw [tokensFrom?] at h
      rcases hstep : step? m c with _ | ⟨ts₀, next⟩ <;> rw [hstep] at h
      · cases h
      · simp only at h
        rw [tokensFrom?_read] at h
        obtain ⟨ts₁, hnext, rfl⟩ := Option.map_eq_some_iff.mp h
        refine (tokensFrom?_step hstep read _).trans ((ih hnext _).trans ?_)
        simp

/-- The tokens of a piece are those that it has by itself. -/
theorem reads_iff : Reads cs ts ↔ tokens? cs = some ts := by
  refine ⟨fun h => ?_, fun h read rest hrest => tokensFrom?_append h read hrest⟩
  have hread := h [] [] ends_nil
  rw [List.append_nil, List.append_nil] at hread
  rw [tokens?, hread]
  simp [tokensFrom?, finish?]

theorem tokensFrom?_number (h : ∀ c ∈ cs, isNumberChar c = true) (read : List Token)
    (before : List Char) :
    tokensFrom? read (.number before) cs =
      tokensFrom? read (.number (cs.reverse ++ before)) [] := by
  induction cs generalizing before with
  | nil => rfl
  | cons c cs ih =>
      obtain ⟨hc, hcs⟩ := List.forall_mem_cons.mp h
      have hstep : step? (.number before) c = some ([], .number (c :: before)) := by
        rw [step?, if_pos hc]
      refine (tokensFrom?_step hstep read _).trans ((ih hcs (c :: before)).trans ?_)
      simp

theorem reads_number (hstart : start? c = some ([], .number [c]))
    (hcs : ∀ c ∈ cs, isNumberChar c = true)
    (ht : numberToken? (c :: cs).reverse = some t) : Reads (c :: cs) [t] := by
  have hfirst : step? .between c = some ([], .number [c]) := hstart
  refine reads_iff.mpr ((tokensFrom?_step hfirst [] cs).trans
    ((tokensFrom?_number hcs _ _).trans ?_))
  rw [← List.reverse_cons, tokensFrom?, finish?, ht]
  rfl

end Pieces

/-! ### Quoted texts -/

theorem digitValue?_digit (n : Nat) : Text.Hex.digitValue? (Text.Hex.digit n) = some (n % 16) := by
  have hdigit : ∀ k < 16, Text.Hex.digitValue? (Text.Hex.digit k) = some k := by decide
  rw [← hdigit (n % 16) (Nat.mod_lt n (by decide)), Text.Hex.digit, Text.Hex.digit, Nat.mod_mod]

theorem step?_digit (d : Draft) (digits value n : Nat) :
    step? (.unicode d none digits value) (Text.Hex.digit n) =
      some ([], if digits = 3 then unicodeEnd d none (16 * value + n % 16)
        else .unicode d none (digits + 1) (16 * value + n % 16)) := by
  rw [step?, digitValue?_digit]
  by_cases hlast : digits = 3 <;> simp [hlast]

/-- Four digits are read as the number that they write. -/
theorem tokensFrom?_unicode (read : List Token) (d : Draft) {n : Nat} (hn : n < 0x10000)
    (rest : List Char) : tokensFrom? read (.unicode d none 0 0) (Text.Hex.ofNat 4 n ++ rest) =
      tokensFrom? read (unicodeEnd d none n) rest := by
  have hvalue : 16 * (16 * (16 * (16 * 0 + n / 16 / 16 / 16 % 16) + n / 16 / 16 % 16) +
      n / 16 % 16) + n % 16 = n := by omega
  have hlast := step?_digit d 3 (16 * (16 * (16 * 0 + n / 16 / 16 / 16 % 16) + n / 16 / 16 % 16) +
    n / 16 % 16) n
  rw [hvalue, if_pos rfl] at hlast
  refine (tokensFrom?_step (step?_digit d 0 0 _) read _).trans ?_
  refine (tokensFrom?_step (step?_digit d 1 _ _) read _).trans ?_
  refine (tokensFrom?_step (step?_digit d 2 _ _) read _).trans ?_
  exact tokensFrom?_step hlast read rest

/-- An escaped character is read as that character. -/
theorem tokensFrom?_escapeChar (read : List Token) (draft : List Char) (c : Char)
    (rest : List Char) : tokensFrom? read (.string ⟨draft, false⟩) (escapeChar c ++ rest) =
      tokensFrom? read (.string ⟨c :: draft, false⟩) rest := by
  rw [escapeChar]
  split_ifs with hquote hslash _ _ _ _ _ hcontrol
  -- The characters with a letter of their own.
  iterate 7 (subst c; rfl)
  · have hescape : tokensFrom? read (.string ⟨draft, false⟩)
        ('\\' :: 'u' :: Text.Hex.ofNat 4 c.toNat ++ rest) =
          tokensFrom? read (.unicode ⟨draft, false⟩ none 0 0) (Text.Hex.ofNat 4 c.toNat ++ rest) :=
      rfl
    rw [hescape, tokensFrom?_unicode read _ (by omega), unicodeEnd, isHigh, isLow]
    have hhigh : ¬0xD800 ≤ c.toNat := by omega
    have hlow : ¬0xDC00 ≤ c.toNat := by omega
    simp [hhigh, hlow, Draft.add, Char.ofNat_toNat]
  · have hstep : step? (.string ⟨draft, false⟩) c = some ([], .string ⟨c :: draft, false⟩) := by
      rw [step?, stringStep?, if_neg hquote, if_neg hslash, if_neg hcontrol]
      rfl
    exact tokensFrom?_step hstep read rest

theorem tokensFrom?_escaped (read : List Token) (draft cs rest : List Char) :
    tokensFrom? read (.string ⟨draft, false⟩) (cs.flatMap escapeChar ++ rest) =
      tokensFrom? read (.string ⟨cs.reverse ++ draft, false⟩) rest := by
  induction cs generalizing draft with
  | nil => rfl
  | cons c cs ih =>
      rw [List.flatMap_cons, List.append_assoc, tokensFrom?_escapeChar, ih]
      simp

theorem closes_quote (s : String) : Closes (quote s).toList [.string s] := by
  intro read rest
  have hopen : step? .between '"' = some ([], .string ⟨[], false⟩) := rfl
  have hclose : step? (.string ⟨s.toList.reverse ++ [], false⟩) '"' =
      some ([.string s], .between) := by
    rw [step?, stringStep?, if_pos rfl]
    simp [Draft.token]
  rw [quote, String.toList_ofList, List.cons_append, List.cons_append, List.append_assoc,
    tokensFrom?_step hopen, tokensFrom?_escaped]
  exact tokensFrom?_step hclose _ rest

end Culprit.Json
