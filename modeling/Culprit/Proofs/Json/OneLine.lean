import Culprit.Proofs.Json.RoundTrip

/-!
The compact form of a value is one line of text without control characters, whatever its texts
hold. It is a line break that ends a record of a log, so a record never ends early.
-/

namespace Culprit

/-- No control character of ASCII, and so no line break. -/
def OneLine (cs : List Char) : Prop :=
  ∀ c ∈ cs, 0x20 ≤ c.toNat

instance (cs : List Char) : Decidable (OneLine cs) :=
  List.decidableBAll (fun c : Char => 0x20 ≤ c.toNat) cs

section Pieces

variable {cs cs' : List Char} {c : Char}

theorem oneLine_nil : OneLine [] :=
  fun _ hc => absurd hc List.not_mem_nil

theorem OneLine.cons (hc : 0x20 ≤ c.toNat) (h : OneLine cs) : OneLine (c :: cs) :=
  List.forall_mem_cons.mpr ⟨hc, h⟩

theorem OneLine.append (h : OneLine cs) (h' : OneLine cs') : OneLine (cs ++ cs') :=
  List.forall_mem_append.mpr ⟨h, h'⟩

theorem OneLine.of_subset (h : OneLine cs) (hsub : ∀ c ∈ cs', c ∈ cs) : OneLine cs' :=
  fun c hc => h c (hsub c hc)

theorem OneLine.intercalate {sep : List Char} {texts : List (List Char)} (hsep : OneLine sep)
    (h : ∀ text ∈ texts, OneLine text) : OneLine (sep.intercalate texts) := by
  cases texts with
  | nil => exact oneLine_nil
  | cons text rest =>
      obtain ⟨htext, hrest⟩ := List.forall_mem_cons.mp h
      rw [Json.intercalate_cons]
      refine htext.append fun c hc => ?_
      obtain ⟨text', htext', hc'⟩ := List.mem_flatMap.mp hc
      exact hsep.append (hrest text' htext') c hc'

end Pieces

/-! ### Numbers -/

namespace Decimal

theorem oneLine_digits (n : Nat) : OneLine (digitsOf n) := by
  intro c hc
  obtain ⟨hlo, -⟩ : '0' ≤ c ∧ c ≤ '9' := by
    simpa [Literal.isDigit] using Json.isDigit_of_mem_toDigits hc
  exact le_trans (by decide) hlo

theorem oneLine_zeros (n : Nat) : OneLine (zeros n) := by
  intro c hc
  rw [(List.mem_replicate.mp hc).2]
  decide

theorem Scaled.oneLine_positional (s : Scaled) : OneLine s.positional := by
  have hdigits := oneLine_digits s.digits
  rw [positional]
  split_ifs
  · exact hdigits.append (oneLine_zeros _)
  · refine (hdigits.of_subset fun c => List.mem_of_mem_take).append (OneLine.cons (by decide) ?_)
    exact hdigits.of_subset fun c => List.mem_of_mem_drop
  · exact ((oneLine_zeros _).append hdigits).cons (by decide) |>.cons (by decide)

theorem oneLine_mantissa {ds : List Char} (h : OneLine ds) : OneLine (mantissa ds) := by
  unfold mantissa
  split
  · exact oneLine_nil
  · exact h
  · obtain ⟨hd, hr⟩ := List.forall_mem_cons.mp h
    exact OneLine.cons hd (OneLine.cons (by decide) hr)

theorem oneLine_exponentText (plus : Bool) (e : Int) : OneLine (exponentText plus e) := by
  rw [exponentText]
  refine OneLine.append (OneLine.cons (by decide) ?_) (oneLine_digits _)
  split_ifs
  · exact oneLine_nil.cons (by decide)
  · exact oneLine_nil.cons (by decide)
  · exact oneLine_nil

theorem Scaled.oneLine_json (s : Scaled) : OneLine s.json := by
  rw [Scaled.json]
  split_ifs
  · decide
  · exact s.oneLine_positional.append (by decide)
  · exact s.oneLine_positional
  · exact (oneLine_mantissa (oneLine_digits _)).append (oneLine_exponentText true _)

theorem oneLine_json (x : Float) : OneLine (json x).toList := by
  rw [json]
  split
  · rw [withSign]
    split
    · decide
    · split <;> decide
    · rw [String.toList_ofList]
      split
      · exact (Scaled.oneLine_json _).cons (by decide)
      · exact Scaled.oneLine_json _
  · decide

end Decimal

/-! ### Texts and values -/

namespace Json

theorem oneLine_hex (width n : Nat) : OneLine (Text.Hex.ofNat width n) := by
  have hdigit : ∀ k < 16, 0x20 ≤ (Text.Hex.digit k).toNat := by decide
  induction width generalizing n with
  | zero => exact oneLine_nil
  | succ width ih =>
      refine (ih (n / 16)).append (oneLine_nil.cons ?_)
      have hlast := hdigit (n % 16) (Nat.mod_lt n (by decide))
      rwa [Text.Hex.digit, Nat.mod_mod] at hlast

theorem oneLine_escapeChar (c : Char) : OneLine (escapeChar c) := by
  rw [escapeChar]
  split_ifs with _ _ _ _ _ _ _ hcontrol
  iterate 7 decide
  · exact ((oneLine_hex 4 c.toNat).cons (by decide)).cons (by decide)
  · exact oneLine_nil.cons (Nat.le_of_not_lt hcontrol)

theorem oneLine_quote (s : String) : OneLine (quote s).toList := by
  rw [quote, String.toList_ofList]
  refine OneLine.append (OneLine.cons (by decide) fun c hc => ?_) (by decide)
  obtain ⟨c', -, hc'⟩ := List.mem_flatMap.mp hc
  exact oneLine_escapeChar c' c hc'

theorem oneLine_toString (n : Int) : OneLine (toString n).toList := by
  rw [toList_toString]
  split
  · exact (Decimal.oneLine_digits _).cons (by decide)
  · exact Decimal.oneLine_digits _

theorem oneLine_intercalate {texts : List String} (h : ∀ text ∈ texts, OneLine text.toList) :
    OneLine (String.intercalate "," texts).toList := by
  rw [String.toList_intercalate]
  refine OneLine.intercalate (by decide) fun text htext => ?_
  obtain ⟨text', hmem, rfl⟩ := List.mem_map.mp htext
  exact h text' hmem

theorem oneLine_compact (j : Json) : OneLine j.compact.toList := by
  induction j with
  | null => decide
  | bool b => cases b <;> decide
  | integer n => exact oneLine_toString n
  | real x => exact Decimal.oneLine_json x
  | string s => exact oneLine_quote s
  | halved => decide
  | array items ih =>
      rw [compact, compactItems_eq, String.toList_append, String.toList_append]
      refine OneLine.append (OneLine.append (by decide) (oneLine_intercalate ?_)) (by decide)
      intro text htext
      obtain ⟨j, hj, rfl⟩ := List.mem_map.mp htext
      exact ih j hj
  | object fields ih =>
      rw [compact, compactFields_eq, String.toList_append, String.toList_append]
      refine OneLine.append (OneLine.append (by decide) (oneLine_intercalate ?_)) (by decide)
      intro text htext
      obtain ⟨p, hp, rfl⟩ := List.mem_map.mp htext
      rw [String.toList_append, String.toList_append]
      exact ((oneLine_quote p.1).append (by decide)).append (ih p hp)

end Json

end Culprit
