import Culprit.Proofs.Json.Numbers
import Culprit.Proofs.Text.Hex
import Culprit.Proofs.Text.Lines
import Culprit.Toolchain.Listing

/-!
What `nm` lists is read back. A row of the table of globals is read as the global that it describes,
whatever the blanks around its columns, and a line that describes none is passed over. Of the two
symbol listings of an object each is read line by line; since both pass over whatever is no symbol,
the names of one symbol are at the same position of both.
-/

namespace Culprit.Toolchain

open Text (Blankless Blanks Interspersed Trimmed isBlank trimChars)

/-! ### Tables of globals -/

namespace Global

variable {g : Global} {line cs column : List Char} {n : Nat}

/-- A hexadecimal number, which a plus sign may precede. -/
inductive Numeral (n : Nat) : List Char → Prop
  | plain {digits : List Char} (h : Text.Hex.Writes digits n) : Numeral n digits
  | signed {digits : List Char} (h : Text.Hex.Writes digits n) : Numeral n ('+' :: digits)

theorem value?_eq_some_iff : value? cs = some n ↔ Numeral n cs ∧ n < valueBound := by
  unfold value?
  rw [Option.filter_eq_some_iff, decide_eq_true_iff, Text.Hex.toNat?_eq_some_iff]
  refine and_congr_left fun _ => ?_
  constructor
  · split
    · exact .signed
    · exact .plain
  · rintro (h | h)
    · split
      · exact absurd (Text.Hex.digit_of_writes h List.mem_cons_self) (by decide)
      · exact h
    · exact h

theorem plain_of_digit {c : Char} (h : (Text.Hex.digitValue? c).isSome) :
    isBlank c = false ∧ c ≠ '|' := by
  obtain ⟨d, hd⟩ := Option.isSome_iff_exists.mp h
  exact Text.forall_char_le
    (P := fun c => (Text.Hex.digitValue? c).isSome → isBlank c = false ∧ c ≠ '|') (by decide)
    (Text.Hex.bounds_of_digitValue? hd).1 h

theorem Numeral.plain_of_mem (h : Numeral n cs) {c : Char} (hc : c ∈ cs) :
    isBlank c = false ∧ c ≠ '|' := by
  cases h with
  | plain h => exact plain_of_digit (Text.Hex.digit_of_writes h hc)
  | signed h =>
      rcases List.mem_cons.mp hc with rfl | hc
      · decide
      · exact plain_of_digit (Text.Hex.digit_of_writes h hc)

theorem Numeral.blankless (h : Numeral n cs) : Blankless cs :=
  fun _ hc => (h.plain_of_mem hc).1

/-- What a column of the table can hold. -/
@[mk_iff]
structure Cell (cs : List Char) : Prop where
  trimmed : Trimmed cs
  noBar : '|' ∉ cs
  noBreak : '\n' ∉ cs

instance (cs : List Char) : Decidable (Cell cs) :=
  decidable_of_iff _ (cell_iff cs).symm

theorem Numeral.cell (h : Numeral n cs) : Cell cs where
  trimmed := h.blankless.trimmed
  noBar hmem := (h.plain_of_mem hmem).2 rfl
  noBreak := h.blankless.notMem rfl

/-- The text stands in the column with blanks around it. -/
inductive Fills (cs : List Char) : List Char → Prop
  | padded {before after : List Char} (hbefore : Blanks before) (hafter : Blanks after)
      (hbreak : '\n' ∉ before ++ after) : Fills cs (before ++ cs ++ after)

theorem Cell.fills_iff (h : Cell cs) :
    Fills cs column ↔ trimChars column = cs ∧ '\n' ∉ column := by
  constructor
  · rintro ⟨hbefore, hafter, hbreak⟩
    refine ⟨h.trimmed.trimChars_padded hbefore hafter, ?_⟩
    simp_all [h.noBreak]
  · rintro ⟨htrim, hbreak⟩
    obtain ⟨before, after, hcolumn, hbefore, hafter⟩ := Text.exists_padding column
    rw [htrim] at hcolumn
    subst hcolumn
    exact .padded hbefore hafter (by simp_all)

theorem Cell.noBar_fills (h : Cell cs) (hfills : Fills cs column) : '|' ∉ column := by
  obtain ⟨hbefore, hafter, -⟩ := hfills
  have hbar := hbefore.notMem (c := '|') rfl
  have hbar' := hafter.notMem (c := '|') rfl
  simp [h.noBar, hbar, hbar']

/-- What a listing can show of a global. -/
@[mk_iff]
structure Printable (g : Global) : Prop where
  name_ne : g.name ≠ ""
  name : Cell g.name.toList
  cls : Cell [g.cls]
  place : Cell g.place.toList
  value : g.value < valueBound

instance (g : Global) : Decidable g.Printable :=
  decidable_of_iff _ (printable_iff g).symm

/-- The seven columns of a global. -/
inductive Row (g : Global) : List Char → Prop
  | columns {name value digits cls kind size number place : List Char}
      (hname : Fills g.name.toList name)
      (hdigits : Numeral g.value digits) (hvalue : Fills digits value)
      (hcls : Fills [g.cls] cls)
      (hothers : ∀ column ∈ [kind, size, number], '|' ∉ column ∧ '\n' ∉ column)
      (hplace : Fills g.place.toList place) :
      Row g (['|'].intercalate [name, value, cls, kind, size, number, place])

/-- A line that describes no global: it has not seven columns, or there is no name, no value or no
class in its columns. -/
inductive Stray : List Char → Prop
  | columns {line : List Char} (h : line.count '|' ≠ 6) : Stray line
  | name {name rest : List Char} (h : Blanks name) : Stray (name ++ '|' :: rest)
  | value {name value rest : List Char} (hname : '|' ∉ name) (hvalue : '|' ∉ value)
      (h : ∀ n < valueBound, ¬Numeral n (trimChars value)) :
      Stray (name ++ '|' :: (value ++ '|' :: rest))
  | cls {name value cls rest : List Char} (hname : '|' ∉ name) (hvalue : '|' ∉ value)
      (h : Blanks cls) : Stray (name ++ '|' :: (value ++ '|' :: (cls ++ '|' :: rest)))

theorem ofRow?_intercalate {name value cls kind size number place : List Char}
    (h : ∀ column ∈ [name, value, cls, kind, size, number, place], '|' ∉ column) :
    ofRow? (['|'].intercalate [name, value, cls, kind, size, number, place]) =
      (trimChars cls).head?.bind fun c => (value? (trimChars value)).bind fun n =>
        if (trimChars name).isEmpty then none
        else some ⟨String.ofList (trimChars name), c, n,
          String.ofList (trimChars place)⟩ := by
  rw [ofRow?, Text.splitAtChar_intercalate h (List.cons_ne_nil _ _)]
  rfl

theorem Row.read (hg : g.Printable) (h : Row g line) : '\n' ∉ line ∧ ofRow? line = some g := by
  obtain ⟨hname, hdigits, hvalue, hcls, hothers, hplace⟩ := h
  next name value digits cls kind size number place =>
  have hname' := hg.name.fills_iff.mp hname
  have hvalue' := hdigits.cell.fills_iff.mp hvalue
  have hcls' := hg.cls.fills_iff.mp hcls
  have hplace' := hg.place.fills_iff.mp hplace
  have hplain : ∀ column ∈ [name, value, cls, kind, size, number, place],
      '|' ∉ column ∧ '\n' ∉ column := by
    have hname := hg.name.noBar_fills hname
    have hvalue := hdigits.cell.noBar_fills hvalue
    have hcls := hg.cls.noBar_fills hcls
    have hplace := hg.place.noBar_fills hplace
    simp_all
  refine ⟨Text.notMem_intercalate (by decide) fun column hmem => (hplain column hmem).2, ?_⟩
  rw [ofRow?_intercalate fun column hmem => (hplain column hmem).1, hname'.1, hvalue'.1, hcls'.1,
    hplace'.1, value?_eq_some_iff.mpr ⟨hdigits, hg.value⟩]
  simp [hg.name_ne]

theorem exists_columns (h : line.count '|' = 6) :
    ∃ name value cls kind size number place : List Char,
      line = ['|'].intercalate [name, value, cls, kind, size, number, place] ∧
        ∀ column ∈ [name, value, cls, kind, size, number, place], '|' ∉ column := by
  obtain ⟨pieces, hne, hfree, rfl⟩ := Text.exists_splitAtChar '|' line
  have hlength := Text.length_splitAtChar '|' (['|'].intercalate pieces)
  rw [Text.splitAtChar_intercalate hfree hne, h] at hlength
  match pieces, hlength, hfree with
  | [name, value, cls, kind, size, number, place], _, hfree =>
    exact ⟨name, value, cls, kind, size, number, place, rfl, hfree⟩

theorem ofRow?_eq_none_of_missing (h : ∀ name value cls kind size number place,
    (Text.splitAtChar '|' line).map trimChars =
      [name, value, cls, kind, size, number, place] → name = [] ∨ value? value = none ∨ cls = []) :
    ofRow? line = none := by
  rw [ofRow?]
  split
  · next name value cls kind size number place hcolumns =>
      obtain rfl | hvalue | rfl := h _ _ _ _ _ _ _ hcolumns
      · rcases cls.head? with _ | c <;> rcases value? value with _ | n <;> rfl
      · rcases cls.head? with _ | c <;> simp [hvalue]
      · rfl
  · rfl

theorem value?_eq_none (h : ∀ n < valueBound, ¬Numeral n cs) : value? cs = none := by
  refine Option.eq_none_iff_forall_ne_some.mpr fun n hn => ?_
  obtain ⟨hnumeral, hbound⟩ := value?_eq_some_iff.mp hn
  exact h n hbound hnumeral

theorem Stray.read (h : Stray line) : ofRow? line = none := by
  refine ofRow?_eq_none_of_missing fun name value cls kind size number place hcolumns => ?_
  cases h with
  | columns hcount =>
      have hlength := congrArg List.length hcolumns
      rw [List.length_map, Text.length_splitAtChar] at hlength
      exact absurd (Nat.succ.inj hlength) hcount
  | name hname =>
      rw [Text.splitAtChar_append, Text.splitAtChar_of_notMem (hname.notMem rfl)] at hcolumns
      exact .inl ((List.cons.inj hcolumns).1.symm.trans (Text.trimChars_blanks hname))
  | value hname hvalue hnone =>
      simp only [Text.splitAtChar_append, Text.splitAtChar_of_notMem hname,
        Text.splitAtChar_of_notMem hvalue, List.map_cons, List.cons_append, List.nil_append,
        List.cons.injEq] at hcolumns
      obtain ⟨-, rfl, -⟩ := hcolumns
      exact .inr (.inl (value?_eq_none hnone))
  | cls hname hvalue hcls =>
      have hbar := hcls.notMem (c := '|') rfl
      simp only [Text.splitAtChar_append, Text.splitAtChar_of_notMem hname,
        Text.splitAtChar_of_notMem hvalue, Text.splitAtChar_of_notMem hbar, List.map_cons,
        List.cons_append, List.nil_append, List.cons.injEq] at hcolumns
      obtain ⟨-, -, rfl, -⟩ := hcolumns
      exact .inr (.inr (Text.trimChars_blanks hcls))

/-- The lines that are passed over are those that describe no global. -/
theorem ofRow?_eq_none_iff : ofRow? line = none ↔ Stray line := by
  refine ⟨fun h => ?_, Stray.read⟩
  by_cases hcount : line.count '|' = 6
  · obtain ⟨name, value, cls, kind, size, number, place, rfl, hfree⟩ := exists_columns hcount
    have hname := hfree name (by simp)
    have hvalue := hfree value (by simp)
    rw [ofRow?_intercalate hfree] at h
    rw [Text.intercalate_cons, Text.intercalate_cons, Text.intercalate_cons]
    rcases hcls : (trimChars cls).head? with _ | c
    · exact .cls hname hvalue (Text.trimChars_eq_nil_iff.mp (List.head?_eq_none_iff.mp hcls))
    · rcases hnumber : value? (trimChars value) with _ | n
      · refine .value hname hvalue fun n hn hnumeral => ?_
        rw [value?_eq_some_iff.mpr ⟨hnumeral, hn⟩] at hnumber
        cases hnumber
      · rw [hcls, Option.bind_some, hnumber, Option.bind_some] at h
        split_ifs at h with hempty
        exact .name (Text.trimChars_eq_nil_iff.mp (List.isEmpty_iff.mp hempty))
    all_goals exact List.cons_ne_nil _ _
  · exact .columns hcount

theorem ofRow?_append_return (line : List Char) : ofRow? (line ++ ['\r']) = ofRow? line := by
  obtain ⟨before, last, hline, hmore⟩ :=
    Text.splitAtChar_append_of_notMem (show '|' ∉ ['\r'] by decide) line
  rw [ofRow?, ofRow?, hline, hmore]
  simp only [List.map_append, List.map_cons, Text.trimChars_append_return]

end Global

/-- The rows of a table are read as the globals that they describe, in their order and with their
exact values, and the other lines as nothing. -/
theorem readGlobals_table {gs : List Global} {lines : List String}
    (hprintable : ∀ g ∈ gs, g.Printable) (h : Interspersed Global.Row Global.Stray gs lines) :
    readGlobals ("\n".intercalate lines) = gs := by
  have hread (g : Global) (hg : g ∈ gs) (line : List Char) (hrow : g.Row line) :=
    hrow.read (hprintable g hg)
  have hglobals := h.filterMap_linesOf Global.ofRow?_append_return rfl
    (fun g hg line hrow => (hread g hg line hrow).1)
    (fun g hg line hrow => (hread g hg line hrow).2) fun line hstray => hstray.read
  rwa [List.map_id'] at hglobals

theorem readGlobals_table_widest :
    let main : Global := ⟨"main", 'T', 26, ".text"⟩
    let mask : Global := ⟨"mask", 'd', 2 ^ 64 - 1, "*ABS*"⟩
    let lines := ["a.o:", "", "main  |001A| T | FUNC|2a|  |.text", " |0|T||||",
      "far|10000000000000000|T||||", "mask|ffffffffffffffff|d|OBJECT|||\t*ABS* "]
    (∀ g ∈ [main, mask], g.Printable) ∧
      Interspersed Global.Row Global.Stray [main, mask] lines ∧
      readGlobals ("\n".intercalate lines) = [main, mask] := by
  intro main mask lines
  have hprintable : ∀ g ∈ [main, mask], g.Printable := by decide
  have fills (cs column : List Char)
      (h : Global.Cell cs ∧ trimChars column = cs ∧ '\n' ∉ column) : Global.Fills cs column :=
    h.1.fills_iff.mpr h.2
  have hmain : main.Row "main  |001A| T | FUNC|2a|  |.text".toList :=
    @Global.Row.columns main "main  ".toList "001A".toList "001A".toList
      " T ".toList " FUNC".toList "2a".toList "  ".toList ".text".toList (fills _ _ (by decide))
      (.plain ⟨2, by decide⟩) (fills _ _ (by decide)) (fills _ _ (by decide)) (by decide)
      (fills _ _ (by decide))
  have hmask : mask.Row "mask|ffffffffffffffff|d|OBJECT|||\t*ABS* ".toList :=
    @Global.Row.columns mask "mask".toList "ffffffffffffffff".toList "ffffffffffffffff".toList
      "d".toList "OBJECT".toList [] [] "\t*ABS* ".toList (fills _ _ (by decide))
      (.plain ⟨0, by decide⟩) (fills _ _ (by decide)) (fills _ _ (by decide)) (by decide)
      (fills _ _ (by decide))
  have hstray (line : String) (h : Global.ofRow? line.toList = none) : Global.Stray line.toList :=
    Global.ofRow?_eq_none_iff.mp h
  have hlines : Interspersed Global.Row Global.Stray [main, mask] lines :=
    .stray (by decide) (hstray _ (by decide)) <| .stray (by decide) (hstray _ (by decide)) <|
    .record hmain <| .stray (by decide) (hstray _ (by decide)) <|
    .stray (by decide) (hstray _ (by decide)) <| .record hmask .nil
  exact ⟨hprintable, hlines, readGlobals_table hprintable hlines⟩

/-! ### Symbol listings -/

namespace Listed

variable {line head place address cls name : List Char} {c : Char}

/-- An address, a class and a name, with one blank after each of the first two. -/
def Shaped (head : List Char) : Prop :=
  ∃ address cls name : List Char, trimChars head = address ++ ' ' :: (cls ++ ' ' :: name) ∧
    ' ' ∉ address ∧ ' ' ∉ cls ∧ cls ≠ []

theorem ofHead?_eq_some (h : trimChars head = address ++ ' ' :: (c :: cls ++ ' ' :: name))
    (haddress : ' ' ∉ address) (hcls : ' ' ∉ c :: cls) :
    ofHead? head = some (c, String.ofList (trimChars name)) := by
  -- The name ends where the trimmed head does, so it does not end in blanks.
  have hname : trimChars name ≠ [] := by
    intro hblank
    have htrimmed : Trimmed ((address ++ ' ' :: c :: cls) ++ ' ' :: name) := by
      simpa [h] using Text.trimmed_trimChars head
    exact htrimmed.not_blanks_right (List.cons_ne_nil _ _)
      (List.forall_mem_cons.mpr ⟨rfl, Text.trimChars_eq_nil_iff.mp hblank⟩)
  have hrest : Text.splitFirst? ' ' (c :: (cls ++ ' ' :: name)) = some (c :: cls, name) :=
    Text.splitFirst?_append hcls name
  simp [ofHead?, h, Text.splitFirst?_append haddress, hrest, hname]

theorem ofHead?_eq_none_iff : ofHead? head = none ↔ ¬Shaped head := by
  constructor
  · rintro hnone ⟨address, cls, name, h, haddress, hcls, hne⟩
    obtain ⟨c, cls, rfl⟩ := List.exists_cons_of_ne_nil hne
    rw [ofHead?_eq_some h haddress hcls] at hnone
    cases hnone
  · intro hshape
    refine Option.eq_none_iff_forall_ne_some.mpr fun p hp => hshape ?_
    simp only [ofHead?, Option.bind_eq_bind, Option.bind_eq_some_iff] at hp
    obtain ⟨⟨address, rest⟩, hrest, ⟨cls, name⟩, hname, c, hc, -⟩ := hp
    obtain ⟨hhead, haddress⟩ := Text.splitFirst?_eq_some_iff.mp hrest
    obtain ⟨rfl, hcls⟩ := Text.splitFirst?_eq_some_iff.mp hname
    refine ⟨address, cls, name, hhead, haddress, hcls, ?_⟩
    rintro rfl
    cases hc

theorem ofLine?_of_tab (h : '\t' ∉ head) (place : List Char) : ofLine? (head ++ '\t' :: place) =
    (ofHead? head).map fun p => ⟨p.1, p.2, placeOf? (trimChars place)⟩ := by
  rw [ofLine?, Text.splitFirst?_append h]

theorem ofLine?_of_no_tab (h : '\t' ∉ line) :
    ofLine? line = (ofHead? line).map fun p => ⟨p.1, p.2, none⟩ := by
  rw [ofLine?, Text.splitFirst?_of_notMem h]

/-- A line that shows no symbol, whatever stands behind a tab. -/
def Stray (line : List Char) : Prop :=
  ¬Shaped (line.takeWhile (· ≠ '\t'))

/-- The lines that are passed over are those that show no symbol. -/
theorem ofLine?_eq_none_iff : ofLine? line = none ↔ Stray line := by
  rw [Stray, ← ofHead?_eq_none_iff]
  by_cases htab : '\t' ∈ line
  · obtain ⟨head, place, rfl, hhead⟩ := List.eq_append_cons_of_mem htab
    have htake : (head ++ '\t' :: place).takeWhile (· ≠ '\t') = head := by
      rw [List.takeWhile_append_of_pos fun c hc => by simpa using ne_of_mem_of_not_mem hc hhead,
        List.takeWhile_cons_of_neg (by simp), List.append_nil]
    rw [ofLine?_of_tab hhead, Option.map_eq_none_iff, htake]
  · have htake : line.takeWhile (· ≠ '\t') = line :=
      List.takeWhile_eq_self_iff.mpr fun c hc => by simpa using ne_of_mem_of_not_mem hc htab
    rw [ofLine?_of_no_tab htab, Option.map_eq_none_iff, htake]

theorem ofLine?_append_return (line : List Char) : ofLine? (line ++ ['\r']) = ofLine? line := by
  by_cases htab : '\t' ∈ line
  · obtain ⟨head, place, rfl, hhead⟩ := List.eq_append_cons_of_mem htab
    rw [List.append_assoc, List.cons_append, ofLine?_of_tab hhead, ofLine?_of_tab hhead,
      Text.trimChars_append_return]
  · rw [ofLine?_of_no_tab htab, ofLine?_of_no_tab (by simpa using htab), ofHead?, ofHead?,
      Text.trimChars_append_return]

end Listed

/-- A symbol of an object, as two listings show it: one has the names that the linker sees, the
other those of the source language. -/
structure Record where
  address : String
  cls : Char
  mangled : String
  demangled : String
  place? : Option (String × Nat)
deriving DecidableEq, Repr

/-- A name that a listing can show; there may be blanks inside it. -/
@[mk_iff]
structure Named (name : String) : Prop where
  ne_empty : name ≠ ""
  trimmed : Trimmed name.toList
  noTab : '\t' ∉ name.toList
  noBreak : '\n' ∉ name.toList

instance (name : String) : Decidable (Named name) :=
  decidable_of_iff _ (named_iff name).symm

namespace Record

/-- A file, which may hold colons, and a number of 32 bits. -/
@[mk_iff]
structure Placed (place : String × Nat) : Prop where
  ne_empty : place.1 ≠ ""
  trimmed : Trimmed place.1.toList
  noBreak : '\n' ∉ place.1.toList
  bound : place.2 < Listed.lineBound

instance (place : String × Nat) : Decidable (Placed place) :=
  decidable_of_iff _ (placed_iff place).symm

@[mk_iff]
structure Printable (r : Record) : Prop where
  address_ne : r.address ≠ ""
  address : Blankless r.address.toList
  cls : isBlank r.cls = false
  mangled : Named r.mangled
  demangled : Named r.demangled
  place : ∀ place ∈ r.place?, Placed place

instance (r : Record) : Decidable r.Printable :=
  decidable_of_iff _ (printable_iff r).symm

def head (r : Record) (name : String) : List Char :=
  r.address.toList ++ ' ' :: ([r.cls] ++ ' ' :: name.toList)

/-- The line of a symbol, under one of its names. -/
def line (r : Record) (name : String) : List Char :=
  r.head name ++ match r.place? with
    | some (file, number) => '\t' :: (file.toList ++ ':' :: (toString number).toList)
    | none => []

def symbol (unit : SourceUnit) (r : Record) : LinkSymbol where
  unit := unit.path
  name := r.mangled
  signature := r.demangled
  file? := r.place?.map (·.1)
  line? := r.place?.map (·.2)

variable {r : Record} {name : String}

theorem toList_toString (n : Nat) : (toString n).toList = Nat.toDigits 10 n := by
  show n.repr.toList = _
  rw [Nat.repr_eq_ofList_toDigits, String.toList_ofList]

theorem natural?_toDigits {n : Nat} (h : n < Listed.lineBound) :
    Decimal.Literal.natural? Listed.lineBound (Nat.toDigits 10 n) = some n := by
  have hall : (Nat.toDigits 10 n).all Decimal.Literal.isDigit = true :=
    List.all_eq_true.mpr fun c hc => Json.isDigit_of_mem_toDigits hc
  have hplus (r : List Char) : Nat.toDigits 10 n ≠ '+' :: r := fun heq =>
    absurd (Json.isDigit_of_mem_toDigits (heq ▸ List.mem_cons_self)) (by decide)
  unfold Decimal.Literal.natural?
  split
  · next r heq => exact absurd heq (hplus r)
  · simp [hall, Json.valueOf_toDigits, h]

theorem plain_of_mem_toDigits {n : Nat} {c : Char} (h : c ∈ Nat.toDigits 10 n) :
    isBlank c = false ∧ c ≠ ':' := by
  have hdigit := Json.isDigit_of_mem_toDigits h
  have hrange : '0' ≤ c ∧ c ≤ '9' := by simpa [Decimal.Literal.isDigit] using hdigit
  exact Text.forall_char_le
    (P := fun c => Decimal.Literal.isDigit c = true → isBlank c = false ∧ c ≠ ':') (b := 57)
    (by decide) hrange.2 hdigit

theorem blankless_toDigits (n : Nat) : Blankless (Nat.toDigits 10 n) :=
  fun _ hc => (plain_of_mem_toDigits hc).1

theorem placeOf?_eq {file : String} {n : Nat} (h : Placed (file, n)) :
    Listed.placeOf? (trimChars (file.toList ++ ':' :: Nat.toDigits 10 n)) = some (file, n) := by
  have htrimmed : Trimmed (file.toList ++ ':' :: Nat.toDigits 10 n) :=
    h.trimmed.append (blankless_toDigits n).trimmed
      (mt String.toList_eq_nil_iff.mp h.ne_empty) Nat.toDigits_ne_nil [':']
  rw [htrimmed.trimChars_eq, Listed.placeOf?,
    Text.splitLast?_append fun hmem => (plain_of_mem_toDigits hmem).2 rfl]
  simp [natural?_toDigits h.bound]

theorem Printable.ofHead?_head (h : r.Printable) (hname : Named name) :
    Listed.ofHead? (r.head name) = some (r.cls, name) := by
  have htrimmed : Trimmed (r.head name) :=
    h.address.trimmed.append hname.trimmed
      (mt String.toList_eq_nil_iff.mp h.address_ne) (mt String.toList_eq_nil_iff.mp hname.ne_empty)
      [' ', r.cls, ' ']
  have hcls : Blankless [r.cls] := List.forall_mem_singleton.mpr h.cls
  rw [head] at htrimmed ⊢
  rw [Listed.ofHead?_eq_some htrimmed.trimChars_eq (h.address.notMem rfl) (hcls.notMem rfl),
    hname.trimmed.trimChars_eq, String.ofList_toList]

/-- Neither a tab nor a line feed stands before the place. -/
theorem Printable.notMem_head (h : r.Printable) {c : Char} (hblank : isBlank c = true)
    (hspace : c ≠ ' ') (hc : c ∉ name.toList) : c ∉ r.head name := by
  have haddress : c ∉ r.address.toList := h.address.notMem hblank
  have hcls : c ≠ r.cls := by
    rintro rfl
    exact Bool.false_ne_true (h.cls.symm.trans hblank)
  simp [head, haddress, hspace, hcls, hc]

theorem Printable.read (h : r.Printable) (hname : Named name) : '\n' ∉ r.line name ∧
    Listed.ofLine? (r.line name) = some ⟨r.cls, name, r.place?⟩ := by
  have htab := h.notMem_head (c := '\t') rfl (by decide) hname.noTab
  have hbreak := h.notMem_head (c := '\n') rfl (by decide) hname.noBreak
  rw [line]
  rcases hplace : r.place? with _ | ⟨file, n⟩
  · refine ⟨by simpa using hbreak, ?_⟩
    rw [List.append_nil, Listed.ofLine?_of_no_tab htab, h.ofHead?_head hname]
    rfl
  · have hfile := h.place _ hplace
    constructor
    · have hdigits : '\n' ∉ Nat.toDigits 10 n := (blankless_toDigits n).notMem rfl
      simp [hbreak, hfile.noBreak, hdigits]
    · show Listed.ofLine? (r.head name ++ '\t' :: _) = _
      rw [Listed.ofLine?_of_tab htab, h.ofHead?_head hname, toList_toString, placeOf?_eq hfile]
      rfl

end Record

theorem readListing_lines {records : List Record} {name : Record → String} {lines : List String}
    (hprintable : ∀ r ∈ records, r.Printable) (hname : ∀ r ∈ records, Named (name r))
    (h : Interspersed (fun r line => line = Record.line r (name r)) Listed.Stray records lines) :
    readListing ("\n".intercalate lines) = records.map fun r => ⟨r.cls, name r, r.place?⟩ := by
  have hread (r : Record) (hr : r ∈ records) := (hprintable r hr).read (hname r hr)
  exact h.filterMap_linesOf Listed.ofLine?_append_return rfl
    (fun r hr line hline => hline ▸ (hread r hr).1) (fun r hr line hline => hline ▸ (hread r hr).2)
    fun line => Listed.ofLine?_eq_none_iff.mpr

/-- The functions among the symbols, in their order: each under its own mangled name, with the
demangled name of the same symbol as its signature, and with its own place. -/
theorem readSymbols_listings (unit : SourceUnit) {records : List Record}
    {mangled demangled : List String} (hprintable : ∀ r ∈ records, r.Printable)
    (hmangled : Interspersed (fun r line => line = Record.line r r.mangled) Listed.Stray
      records mangled)
    (hdemangled : Interspersed (fun r line => line = Record.line r r.demangled) Listed.Stray
      records demangled) :
    readSymbols unit ("\n".intercalate mangled) ("\n".intercalate demangled) =
      (records.filter fun r => r.cls = 'T' || r.cls = 'W').map (Record.symbol unit) := by
  rw [readSymbols, readListing_lines hprintable (fun r hr => (hprintable r hr).mangled) hmangled,
    readListing_lines hprintable (fun r hr => (hprintable r hr).demangled) hdemangled]
  let functions : Record × Nat → Bool := fun p => p.1.cls = 'T' || p.1.cls = 'W'
  calc
    _ = (records.zipIdx.filter functions).map fun p => Record.symbol unit p.1 := by
      rw [List.zipIdx_map, List.filter_map, List.map_map]
      refine List.map_congr_left fun p hp => ?_
      -- The symbol at a position of one listing is at this position of the other, too.
      have hpaired := List.mem_zipIdx_iff_getElem?.mp (List.mem_of_mem_filter hp)
      simp [linkSymbol, Record.symbol, hpaired]
    _ = ((records.zipIdx.map Prod.fst).filter fun r => r.cls = 'T' || r.cls = 'W').map
        (Record.symbol unit) := by
      rw [List.filter_map, List.map_map]
      rfl
    _ = _ := by rw [List.zipIdx_map_fst]

theorem readSymbols_listings_colons :
    let records : List Record := [
      ⟨"00", 'T', "_Z3addii", "add(int, int)", some ("a.cpp", 12)⟩,
      ⟨"04", 'D', "table", "table", none⟩,
      ⟨"00", 'W', "_Z3getIiET_v", "int get<int>()", some ("C:/a.hpp", 40)⟩]
    let mangled := ["", "00 T _Z3addii\ta.cpp:12", "   U free", "04 D table",
      "00 W _Z3getIiET_v\tC:/a.hpp:40"]
    let demangled := ["", "00 T add(int, int)\ta.cpp:12", "   U free", "04 D table",
      "00 W int get<int>()\tC:/a.hpp:40"]
    (∀ r ∈ records, r.Printable) ∧
      Interspersed (fun r line => line = Record.line r r.mangled) Listed.Stray records mangled ∧
      Interspersed (fun r line => line = Record.line r r.demangled) Listed.Stray records
        demangled ∧
      readSymbols default ("\n".intercalate mangled) ("\n".intercalate demangled) =
        [⟨"", "_Z3addii", "add(int, int)", some "a.cpp", some 12⟩,
          ⟨"", "_Z3getIiET_v", "int get<int>()", some "C:/a.hpp", some 40⟩] := by
  intro records mangled demangled
  have hprintable : ∀ r ∈ records, r.Printable := by decide
  have hstray (line : String) (h : Listed.ofLine? line.toList = none) : Listed.Stray line.toList :=
    Listed.ofLine?_eq_none_iff.mp h
  have hmangled : Interspersed (fun r line => line = Record.line r r.mangled) Listed.Stray records
      mangled :=
    .stray (by decide) (hstray _ (by decide)) <| .record rfl <|
    .stray (by decide) (hstray _ (by decide)) <| .record rfl <| .record rfl .nil
  have hdemangled : Interspersed (fun r line => line = Record.line r r.demangled) Listed.Stray
      records demangled :=
    .stray (by decide) (hstray _ (by decide)) <| .record rfl <|
    .stray (by decide) (hstray _ (by decide)) <| .record rfl <| .record rfl .nil
  exact ⟨hprintable, hmangled, hdemangled,
    (readSymbols_listings default hprintable hmangled hdemangled).trans (by decide)⟩

end Culprit.Toolchain
