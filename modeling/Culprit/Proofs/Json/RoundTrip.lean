import Culprit.Json.Reader
import Culprit.Proofs.Json.Numbers

/-!
A JSON value can be read back from its text, on one line or laid out, if its reals are exact. Both
texts are read as the same tokens, and from these the reader builds the value.
-/

namespace Culprit.Json

/-! ### The shape of a value -/

/-- A property of a value follows from that of its items or of the values of its fields. -/
@[induction_eliminator]
theorem induct {P : Json → Prop} (null : P .null) (bool : ∀ b, P (.bool b))
    (integer : ∀ n, P (.integer n)) (real : ∀ x, P (.real x)) (string : ∀ s, P (.string s))
    (halved : P .halved) (array : ∀ items, (∀ j ∈ items, P j) → P (.array items))
    (object : ∀ fields, (∀ p ∈ fields, P p.2) → P (.object fields)) (j : Json) : P j :=
  @Json.rec P (fun items => ∀ j ∈ items, P j) (fun fields => ∀ p ∈ fields, P p.2)
    (fun p => P p.2) null bool integer real string halved array object
    (fun _ h => absurd h List.not_mem_nil)
    (fun _ _ hj hrest => List.forall_mem_cons.mpr ⟨hj, hrest⟩)
    (fun _ h => absurd h List.not_mem_nil)
    (fun _ _ hp hrest => List.forall_mem_cons.mpr ⟨hp, hrest⟩) (fun _ _ hj => hj) j

theorem compactItems_eq (items : List Json) : compactItems items = items.map compact := by
  induction items with
  | nil => rfl
  | cons j rest ih => rw [compactItems, ih, List.map_cons]

theorem compactFields_eq (fields : List (String × Json)) :
    compactFields fields = fields.map fun p => quote p.1 ++ ":" ++ compact p.2 := by
  induction fields with
  | nil => rfl
  | cons p rest ih => rw [compactFields, ih, List.map_cons]

theorem prettyItems_eq (level : Nat) (items : List Json) :
    prettyItems level items = items.map (prettyAt level) := by
  induction items with
  | nil => rfl
  | cons j rest ih => rw [prettyItems, ih, List.map_cons]

theorem prettyFields_eq (level : Nat) (fields : List (String × Json)) :
    prettyFields level fields = fields.map fun p => quote p.1 ++ ": " ++ prettyAt level p.2 := by
  induction fields with
  | nil => rfl
  | cons p rest ih => rw [prettyFields, ih, List.map_cons]

mutual

/-- The tokens of a value. -/
def tokens : Json → List Token
  | .null | .halved => [.null]
  | .bool b => [.bool b]
  | .integer n => [.integer n]
  | .real x => [.real x]
  | .string s => [.string s]
  | .array items => .leftBracket :: [Token.comma].intercalate (itemTokens items) ++ [.rightBracket]
  | .object fields => .leftBrace :: [Token.comma].intercalate (fieldTokens fields) ++ [.rightBrace]

def itemTokens : List Json → List (List Token)
  | [] => []
  | j :: rest => tokens j :: itemTokens rest

def fieldTokens : List (String × Json) → List (List Token)
  | [] => []
  | (k, j) :: rest => (.string k :: .colon :: tokens j) :: fieldTokens rest

end

theorem itemTokens_eq (items : List Json) : itemTokens items = items.map tokens := by
  induction items with
  | nil => rfl
  | cons j rest ih => rw [itemTokens, ih, List.map_cons]

theorem fieldTokens_eq (fields : List (String × Json)) :
    fieldTokens fields = fields.map fun p => .string p.1 :: .colon :: tokens p.2 := by
  induction fields with
  | nil => rfl
  | cons p rest ih => rw [fieldTokens, ih, List.map_cons]

mutual

/-- The text of the value says what it is: its reals are exact, and no text in it is halved. -/
def Faithful : Json → Prop
  | .null | .bool _ | .integer _ | .string _ => True
  | .real x => Exact x
  | .halved => False
  | .array items => FaithfulItems items
  | .object fields => FaithfulFields fields

def FaithfulItems : List Json → Prop
  | [] => True
  | j :: rest => Faithful j ∧ FaithfulItems rest

def FaithfulFields : List (String × Json) → Prop
  | [] => True
  | (_, j) :: rest => Faithful j ∧ FaithfulFields rest

end

@[simp] theorem faithful_null : Json.null.Faithful := trivial

@[simp] theorem faithful_bool (b : Bool) : (Json.bool b).Faithful := trivial

@[simp] theorem faithful_integer (n : Int) : (Json.integer n).Faithful := trivial

@[simp] theorem faithful_string (s : String) : (Json.string s).Faithful := trivial

theorem faithful_array {items : List Json} :
    (Json.array items).Faithful ↔ ∀ j ∈ items, j.Faithful := by
  rw [Faithful]
  induction items with
  | nil => simp [FaithfulItems]
  | cons j rest ih => rw [FaithfulItems, ih, List.forall_mem_cons]

theorem faithful_object {fields : List (String × Json)} :
    (Json.object fields).Faithful ↔ ∀ p ∈ fields, p.2.Faithful := by
  rw [Faithful]
  induction fields with
  | nil => simp [FaithfulFields]
  | cons p rest ih => rw [FaithfulFields, ih, List.forall_mem_cons]

/-! ### From the text to the tokens -/

theorem intercalate_cons {α : Type} (sep x : List α) (xs : List (List α)) :
    sep.intercalate (x :: xs) = x ++ xs.flatMap (sep ++ ·) := by
  induction xs generalizing x with
  | nil => simp [List.intercalate]
  | cons y ys ih =>
      rw [List.flatMap_cons, List.append_assoc, ← ih y]
      simp [List.intercalate]

section Layout

variable {α : Type} {left right gap gap' : String} {items : List α} {text : α → String}
  {ts : α → List Token} {tl tr : Token}

/-- Texts with a comma between two of them. -/
theorem reads_intercalate (hgap : ∀ c ∈ gap.toList, isBlank c = true)
    (h : ∀ j ∈ items, Reads (text j).toList (ts j)) :
    Reads (String.intercalate ("," ++ gap) (items.map text)).toList
      ([Token.comma].intercalate (items.map ts)) := by
  have hsep : Closes (',' :: gap.toList) [.comma] :=
    (closes_mark (by rfl)).append (closes_blanks hgap)
  have htexts : (String.intercalate ("," ++ gap) (items.map text)).toList =
      (',' :: gap.toList).intercalate (items.map fun j => (text j).toList) := by
    rw [String.toList_intercalate, String.toList_append, List.map_map]
    rfl
  rw [htexts]
  have hrest : ∀ items : List α, (∀ j ∈ items, Reads (text j).toList (ts j)) →
      Reads ((items.map fun j => (text j).toList).flatMap ((',' :: gap.toList) ++ ·))
          ((items.map ts).flatMap ([.comma] ++ ·)) ∧
        Ends ((items.map fun j => (text j).toList).flatMap ((',' :: gap.toList) ++ ·)) := by
    intro items h
    induction items with
    | nil => exact ⟨closes_nil.reads, ends_nil⟩
    | cons j rest ih =>
        obtain ⟨hj, hrest⟩ := List.forall_mem_cons.mp h
        obtain ⟨hreads, hends⟩ := ih hrest
        exact ⟨(hsep.append_reads hj).append hreads hends, ends_cons rfl rfl⟩
  cases items with
  | nil => exact closes_nil.reads
  | cons j rest =>
      obtain ⟨hj, hitems⟩ := List.forall_mem_cons.mp h
      obtain ⟨hreads, hends⟩ := hrest rest hitems
      rw [List.map_cons, List.map_cons, intercalate_cons, intercalate_cons]
      exact hj.append hreads hends

/-- Items between two brackets, with blanks around them and after each comma. -/
theorem closes_block (hleft : Closes left.toList [tl]) (hright : Closes right.toList [tr])
    (hends : Ends right.toList) (hsome : right.toList ≠ [])
    (hgap : ∀ c ∈ gap.toList, isBlank c = true) (hgap' : ∀ c ∈ gap'.toList, isBlank c = true)
    (h : ∀ j ∈ items, Reads (text j).toList (ts j)) :
    Closes (left ++ gap ++ String.intercalate ("," ++ gap) (items.map text) ++ gap' ++ right).toList
      (tl :: [Token.comma].intercalate (items.map ts) ++ [tr]) := by
  have hbody := (hleft.append (closes_blanks hgap)).append_reads (reads_intercalate hgap h)
  have hclose := (closes_blanks hgap').append hright
  have hover : Ends (gap'.toList ++ right.toList) := by
    rcases hcs : gap'.toList with _ | ⟨c, cs⟩
    · exact hends
    · exact ends_blank (hgap' c (by simp [hcs]))
  rw [String.toList_append, String.toList_append, String.toList_append, String.toList_append,
    List.append_assoc _ gap'.toList]
  rcases hlast : gap'.toList ++ right.toList with _ | ⟨c, cs⟩
  · exact absurd (List.append_eq_nil_iff.mp hlast).2 hsome
  · rw [hlast] at hclose hover
    exact hbody.append_closes hclose hover

end Layout

theorem isBlank_of_mem_newLine {level : Nat} {c : Char} (h : c ∈ (newLine level).toList) :
    isBlank c = true := by
  rw [newLine, String.toList_ofList] at h
  rcases List.mem_cons.mp h with rfl | h
  · rfl
  · rw [(List.mem_replicate.mp h).2]
    rfl

theorem reads_field {key sep : String} {text : String} {ts : List Token}
    (hsep : Closes sep.toList [.colon]) (h : Reads text.toList ts) :
    Reads (quote key ++ sep ++ text).toList (.string key :: .colon :: ts) := by
  rw [String.toList_append, String.toList_append]
  exact ((closes_quote key).append hsep).append_reads h

theorem closes_array {items : List Json} {text : Json → String} (gap gap' : String)
    (hgap : ∀ c ∈ gap.toList, isBlank c = true) (hgap' : ∀ c ∈ gap'.toList, isBlank c = true)
    (h : ∀ j ∈ items, Reads (text j).toList j.tokens) :
    Closes ("[" ++ gap ++ String.intercalate ("," ++ gap) (items.map text) ++ gap' ++ "]").toList
      (Json.array items).tokens := by
  rw [tokens, itemTokens_eq]
  exact closes_block (closes_mark rfl) (closes_mark rfl) (ends_cons rfl rfl) (by simp) hgap hgap' h

theorem closes_object {fields : List (String × Json)} {text : Json → String}
    (gap gap' sep : String) (hgap : ∀ c ∈ gap.toList, isBlank c = true)
    (hgap' : ∀ c ∈ gap'.toList, isBlank c = true) (hsep : Closes sep.toList [.colon])
    (h : ∀ p ∈ fields, Reads (text p.2).toList p.2.tokens) :
    Closes (openBrace ++ gap ++ String.intercalate ("," ++ gap)
      (fields.map fun p => quote p.1 ++ sep ++ text p.2) ++ gap' ++ closeBrace).toList
      (Json.object fields).tokens := by
  rw [tokens, fieldTokens_eq]
  exact closes_block (closes_mark rfl) (closes_mark rfl) (ends_cons rfl rfl) (by simp [closeBrace])
    hgap hgap' fun p hp => reads_field hsep (h p hp)

theorem reads_compact {j : Json} (h : j.Faithful) : Reads j.compact.toList j.tokens := by
  induction j with
  | null => exact reads_iff.mpr rfl
  | bool b => cases b <;> exact reads_iff.mpr rfl
  | integer n => exact reads_integer n
  | real x => exact reads_iff.mpr h
  | string s => exact (closes_quote s).reads
  | halved => exact h.elim
  | array items ih =>
      rw [faithful_array] at h
      have hblock := closes_array "" "" (by simp) (by simp) fun j hj => ih j hj (h j hj)
      rw [compact, compactItems_eq]
      simpa using hblock.reads
  | object fields ih =>
      rw [faithful_object] at h
      have hblock := closes_object "" "" ":" (by simp) (by simp) (closes_mark rfl)
        fun p hp => ih p hp (h p hp)
      rw [compact, compactFields_eq]
      simpa using hblock.reads

theorem reads_prettyAt {j : Json} (h : j.Faithful) (level : Nat) :
    Reads (prettyAt level j).toList j.tokens := by
  have hblank (level : Nat) : ∀ c ∈ (newLine level).toList, isBlank c = true :=
    fun _ => isBlank_of_mem_newLine
  induction j generalizing level with
  | array items ih =>
      rw [faithful_array] at h
      rw [prettyAt, prettyItems_eq, block]
      split
      · next hnone =>
          obtain rfl : items = [] := by simpa using hnone
          exact reads_iff.mpr rfl
      · exact (closes_array _ _ (hblank (level + 1)) (hblank level)
          fun j hj => ih j hj (h j hj) (level + 1)).reads
  | object fields ih =>
      rw [faithful_object] at h
      rw [prettyAt, prettyFields_eq, block]
      have hcolon : Closes ": ".toList [.colon] :=
        (closes_mark rfl).append (show Closes [' '] [] from
          closes_blanks (List.forall_mem_singleton.mpr (by decide)))
      split
      · next hnone =>
          obtain rfl : fields = [] := by simpa using hnone
          exact reads_iff.mpr rfl
      · exact (closes_object _ _ ": " (hblank (level + 1)) (hblank level) hcolon
          fun p hp => ih p hp (h p hp) (level + 1)).reads
  -- What has no parts is laid out on its line.
  | _ =>
      have hcompact := reads_compact h
      rwa [compact] at hcompact

/-! ### From the tokens to the value -/

/-- A value may come next. -/
def Expect.takesValue : Expect → Prop
  | .value | .valueOrClose => True
  | _ => False

/-- The reader takes the value as a whole. -/
def Taken (j : Json) : Prop :=
  ∀ s rest, s.expect.takesValue → readTokens? s (j.tokens ++ rest) = readTokens? (put s j) rest

section Reader

variable {s s' : State} {stack : List Frame} {e : Expect} {last j : Json} {t : Token}
  {ts rest : List Token}

theorem readTokens?_step (h : advance? s t = some s') (ts : List Token) :
    readTokens? s (t :: ts) = readTokens? s' ts := by
  rw [readTokens?, h]

theorem advance?_value (hs : s.expect.takesValue) (ht : t ≠ .rightBracket) :
    advance? s t = valueToken? s t := by
  rw [advance?]
  cases he : s.expect <;> rw [he] at hs <;> first | exact hs.elim | simp [ht]

/-- A value of one token. -/
theorem taken_single (htokens : j.tokens = [t]) (ht : t ≠ .rightBracket)
    (hvalue : ∀ s, valueToken? s t = some (put s j)) : j.Taken := by
  intro s rest hs
  rw [htokens]
  exact readTokens?_step ((advance?_value hs ht).trans (hvalue s)) rest

/-- The items after the first up to the end of the array. -/
theorem readTokens?_items {items : List Json} (h : ∀ j ∈ items, j.Taken) (read : List Json) :
    readTokens? ⟨.array read :: stack, .commaOrClose, last⟩
        ((items.map tokens).flatMap ([.comma] ++ ·) ++ .rightBracket :: rest) =
      readTokens? (put ⟨stack, .value, .null⟩ (.array (read.reverse ++ items))) rest := by
  induction items generalizing read last with
  | nil =>
      rw [List.append_nil]
      exact readTokens?_step (s := ⟨.array read :: stack, .commaOrClose, last⟩) rfl rest
  | cons j items ih =>
      obtain ⟨hj, hitems⟩ := List.forall_mem_cons.mp h
      rw [List.map_cons, List.flatMap_cons, List.append_assoc, List.append_assoc]
      refine (readTokens?_step (s := ⟨.array read :: stack, .commaOrClose, last⟩) rfl _).trans ?_
      refine (hj ⟨.array read :: stack, .value, last⟩ _ trivial).trans ?_
      refine (ih hitems (j :: read)).trans ?_
      rw [List.reverse_cons, List.append_assoc]
      rfl

theorem taken_array {items : List Json} (h : ∀ j ∈ items, j.Taken) : (Json.array items).Taken := by
  intro s rest hs
  rw [tokens, itemTokens_eq, List.append_assoc, List.cons_append]
  have hopen : advance? s .leftBracket = some (push s (.array []) .valueOrClose) :=
    advance?_value hs (by decide)
  refine (readTokens?_step hopen _).trans ?_
  cases items with
  | nil => exact readTokens?_step (s := push s (.array []) .valueOrClose) rfl rest
  | cons j items =>
      obtain ⟨hj, hitems⟩ := List.forall_mem_cons.mp h
      rw [List.map_cons, intercalate_cons, List.append_assoc]
      exact (hj (push s (.array []) .valueOrClose) _ trivial).trans (readTokens?_items hitems [j])

/-- A field with its key. -/
theorem readTokens?_field {p : String × Json} (h : p.2.Taken) {read : List (String × Json)}
    {key : String} (he : e = .key ∨ e = .keyOrClose) :
    readTokens? ⟨.object read key :: stack, e, last⟩
        (.string p.1 :: .colon :: p.2.tokens ++ rest) =
      readTokens? ⟨.object (p :: read) "" :: stack, .commaOrClose, .null⟩ rest := by
  have hkey : advance? ⟨.object read key :: stack, e, last⟩ (.string p.1) =
      some ⟨.object read p.1 :: stack, .colon, .null⟩ := by
    rcases he with rfl | rfl <;> rfl
  refine (readTokens?_step hkey _).trans ?_
  refine (readTokens?_step (s := ⟨.object read p.1 :: stack, .colon, .null⟩) rfl _).trans ?_
  exact h ⟨.object read p.1 :: stack, .value, .null⟩ _ trivial

/-- The fields after the first up to the end of the object. -/
theorem readTokens?_fields {fields : List (String × Json)} (h : ∀ p ∈ fields, p.2.Taken)
    (read : List (String × Json)) :
    readTokens? ⟨.object read "" :: stack, .commaOrClose, last⟩
        ((fields.map fun p => .string p.1 :: .colon :: p.2.tokens).flatMap ([.comma] ++ ·) ++
          .rightBrace :: rest) =
      readTokens? (put ⟨stack, .value, .null⟩ (.object (read.reverse ++ fields))) rest := by
  induction fields generalizing read last with
  | nil =>
      rw [List.append_nil]
      exact readTokens?_step (s := ⟨.object read "" :: stack, .commaOrClose, last⟩) rfl rest
  | cons p fields ih =>
      obtain ⟨hp, hfields⟩ := List.forall_mem_cons.mp h
      rw [List.map_cons, List.flatMap_cons, List.append_assoc, List.append_assoc]
      refine (readTokens?_step
        (s := ⟨.object read "" :: stack, .commaOrClose, last⟩) rfl _).trans ?_
      refine (readTokens?_field hp (.inl rfl)).trans ?_
      refine (ih hfields (p :: read)).trans ?_
      rw [List.reverse_cons, List.append_assoc]
      rfl

theorem taken_object {fields : List (String × Json)} (h : ∀ p ∈ fields, p.2.Taken) :
    (Json.object fields).Taken := by
  intro s rest hs
  rw [tokens, fieldTokens_eq, List.append_assoc, List.cons_append]
  have hopen : advance? s .leftBrace = some (push s (.object [] "") .keyOrClose) :=
    advance?_value hs (by decide)
  refine (readTokens?_step hopen _).trans ?_
  cases fields with
  | nil => exact readTokens?_step (s := push s (.object [] "") .keyOrClose) rfl rest
  | cons p fields =>
      obtain ⟨hp, hfields⟩ := List.forall_mem_cons.mp h
      rw [List.map_cons, intercalate_cons, List.append_assoc]
      exact (readTokens?_field hp (.inr rfl)).trans (readTokens?_fields hfields [p])

theorem Faithful.taken (h : j.Faithful) : j.Taken := by
  induction j with
  | null => exact taken_single (t := .null) rfl (by simp) fun _ => rfl
  | bool b => exact taken_single (t := .bool b) rfl (by simp) fun _ => rfl
  | integer n => exact taken_single (t := .integer n) rfl (by simp) fun _ => rfl
  | real x => exact taken_single (t := .real x) rfl (by simp) fun _ => rfl
  | string s => exact taken_single (t := .string s) rfl (by simp) fun _ => rfl
  | halved => exact h.elim
  | array items ih =>
      rw [faithful_array] at h
      exact taken_array fun j hj => ih j hj (h j hj)
  | object fields ih =>
      rw [faithful_object] at h
      exact taken_object fun p hp => ih p hp (h p hp)

end Reader

/-! ### Both together -/

theorem parse?_of_reads {j : Json} (h : j.Faithful) {text : String}
    (hreads : Reads text.toList j.tokens) : parse? text = some j := by
  rw [parse?, reads_iff.mp hreads]
  have htaken := h.taken ⟨[], .value, .null⟩ [] trivial
  rw [List.append_nil] at htaken
  exact htaken

/-- A value can be read back from its line. -/
theorem parse?_compact {j : Json} (h : j.Faithful) : parse? j.compact = some j :=
  parse?_of_reads h (reads_compact h)

/-- A value can be read back from its layout. -/
theorem parse?_pretty {j : Json} (h : j.Faithful) : parse? j.pretty = some j :=
  parse?_of_reads h (reads_prettyAt h 0)

end Culprit.Json
