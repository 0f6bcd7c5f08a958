import Culprit.Csv
import Culprit.Proofs.Text.Utf8

/-!
What was written as comma-separated values is read back, whatever the fields hold. The reader goes
over the bytes of a field and has the field at their end; the comma or the line feed after it then
ends the field, or the record with it.
-/

namespace Culprit.Csv

open Text.Utf8 (encode)

/-- Where the reader stands, whatever it has counted. -/
structure State.At (s : State) (mode : Mode) (field : List UInt8) (fields : List (List UInt8))
    (rows : List (List (List UInt8))) : Prop where
  mode : s.mode = mode
  field : s.field = field
  fields : s.fields = fields
  rows : s.records.map Record.fields = rows

variable {s : State} {mode : Mode} {b : UInt8} {field : List UInt8} {fields : List (List UInt8)}
  {rows : List (List (List UInt8))} {cs : List Char}

/-! ### One byte -/

namespace State.At

theorem count (h : s.At mode field fields rows) (b : UInt8) :
    (s.count b).At mode field fields rows :=
  ⟨h.mode, h.field, h.fields, h.rows⟩

theorem copy (h : s.At mode field fields rows) (next : Mode) (b : UInt8) :
    (s.copy next b).At next (b :: field) fields rows :=
  ⟨rfl, congrArg (b :: ·) h.field, h.fields, h.rows⟩

theorem endField (h : s.At mode field fields rows) :
    s.endField.At .startField [] (field.reverse :: fields) rows where
  mode := rfl
  field := rfl
  fields := by rw [State.endField, h.field, h.fields]
  rows := h.rows

theorem endRecord (h : s.At mode field fields rows) :
    s.endRecord.At .startRecord [] [] ((fields.reverse ++ [field.reverse]) :: rows) where
  mode := rfl
  field := rfl
  fields := rfl
  rows := by
    show s.endField.fields.reverse :: s.records.map Record.fields = _
    rw [h.endField.fields, h.rows, List.reverse_cons]

/-- Outside quotes a byte is plain, but for a quote that opens a field or follows another one, and
for a line break between records. -/
theorem step_plain (h : s.At mode field fields rows) (hmode : mode ≠ .inQuotes)
    (hquote : b = quote → mode = .inField)
    (hbreak : isTerminator b = true → mode ≠ .startRecord) :
    s.step b = (s.count b).plain b := by
  have hcount : (s.count b).mode = mode := h.mode
  rw [step, hcount]
  cases mode with
  | startRecord =>
      dsimp only
      rw [if_neg fun hb => hbreak hb rfl, if_neg fun hb => nomatch hquote hb]
  | startField =>
      dsimp only
      rw [if_neg fun hb => nomatch hquote hb]
  | inField => rfl
  | inQuotes => exact absurd rfl hmode
  | afterQuote =>
      dsimp only
      rw [if_neg fun hb => nomatch hquote hb]

theorem comma (h : s.At mode field fields rows) (hmode : mode ≠ .inQuotes) :
    (s.step comma).At .startField [] (field.reverse :: fields) rows := by
  rw [h.step_plain hmode (fun hb => absurd hb (by decide)) fun hb => absurd hb (by decide), plain,
    if_pos rfl]
  exact (h.count _).endField

theorem lineFeed (h : s.At mode field fields rows) (hmode : mode ≠ .inQuotes)
    (hfield : mode ≠ .startRecord) :
    (s.step lineFeed).At .startRecord [] [] ((fields.reverse ++ [field.reverse]) :: rows) := by
  rw [h.step_plain hmode (fun hb => absurd hb (by decide)) fun _ => hfield, plain,
    if_neg (by decide), if_pos (by decide)]
  exact (h.count _).endRecord

theorem other (h : s.At mode field fields rows) (hmode : mode ≠ .inQuotes) (hcomma : b ≠ Csv.comma)
    (hquote : b ≠ quote) (hbreak : isTerminator b = false) :
    (s.step b).At .inField (b :: field) fields rows := by
  rw [h.step_plain hmode (fun hb => absurd hb hquote) fun hb => absurd hb (by simp [hbreak]), plain,
    if_neg hcomma, if_neg (by simp [hbreak])]
  exact (h.count b).copy .inField b

theorem opening (h : s.At mode field fields rows)
    (hmode : mode = .startRecord ∨ mode = .startField) :
    (s.step quote).At .inQuotes field fields rows := by
  have hcount : (s.count quote).mode = mode := h.mode
  rw [step, hcount]
  rcases hmode with rfl | rfl <;> exact ⟨rfl, h.field, h.fields, h.rows⟩

theorem inside (h : s.At .inQuotes field fields rows) (hquote : b ≠ quote) :
    (s.step b).At .inQuotes (b :: field) fields rows := by
  have hcount : (s.count b).mode = .inQuotes := h.mode
  rw [step, hcount]
  dsimp only
  rw [if_neg hquote]
  exact (h.count b).copy .inQuotes b

theorem closing (h : s.At .inQuotes field fields rows) :
    (s.step quote).At .afterQuote field fields rows := by
  have hcount : (s.count quote).mode = .inQuotes := h.mode
  rw [step, hcount]
  exact ⟨rfl, h.field, h.fields, h.rows⟩

theorem doubled (h : s.At .inQuotes field fields rows) :
    ((s.step quote).step quote).At .inQuotes (quote :: field) fields rows := by
  have hclosed := h.closing
  have hcount : ((s.step quote).count quote).mode = .afterQuote := hclosed.mode
  rw [step, hcount]
  exact (hclosed.count quote).copy .inQuotes quote

/-! ### One field -/

/-- Bytes that are copied one by one are copied as a whole. -/
theorem run (h : s.At mode field fields rows) (bytes : List UInt8)
    (hcopy : ∀ b ∈ bytes, ∀ (s : State) field, s.At mode field fields rows →
      (s.step b).At mode (b :: field) fields rows) :
    (bytes.foldl step s).At mode (bytes.reverse ++ field) fields rows := by
  induction bytes generalizing s field with
  | nil => exact h
  | cons b bytes ih =>
      obtain ⟨hb, hbytes⟩ := List.forall_mem_cons.mp hcopy
      rw [List.foldl_cons, List.reverse_cons, List.append_assoc]
      exact ih (hb s field h) hbytes

/-- A field without quotes. -/
theorem bare (h : s.At mode field fields rows) (hmode : mode ≠ .inQuotes)
    (hbytes : ∀ b ∈ encode cs, b ≠ Csv.comma ∧ b ≠ quote ∧ isTerminator b = false)
    (hcs : cs ≠ []) :
    ((encode cs).foldl step s).At .inField ((encode cs).reverse ++ field) fields rows := by
  obtain ⟨c, cs, rfl⟩ := List.exists_cons_of_ne_nil hcs
  obtain ⟨b, tail, hc, -⟩ := Text.Utf8.first_encode c []
  have hencode : encode (c :: cs) = b :: (tail ++ encode cs) := by
    rw [encode, List.flatMap_cons, hc]
    rfl
  rw [hencode] at hbytes ⊢
  obtain ⟨⟨hcomma, hquote, hbreak⟩, hrest⟩ := List.forall_mem_cons.mp hbytes
  rw [List.foldl_cons, List.reverse_cons, List.append_assoc]
  refine (h.other hmode hcomma hquote hbreak).run _ fun b hb s field hs => ?_
  obtain ⟨hcomma, hquote, hbreak⟩ := hrest b hb
  exact hs.other (by decide) hcomma hquote hbreak

/-- Inside quotes a text is read with each quote twice. -/
theorem quoted (h : s.At .inQuotes field fields rows) (cs : List Char) :
    ((encode (doubleQuotes cs)).foldl step s).At .inQuotes ((encode cs).reverse ++ field) fields
      rows := by
  induction cs generalizing s field with
  | nil => exact h
  | cons c cs ih =>
      have hencode : encode (c :: cs) = String.utf8EncodeChar c ++ encode cs := List.flatMap_cons
      rw [doubleQuotes, List.flatMap_cons, Text.Utf8.encode_append, List.foldl_append, hencode,
        List.reverse_append, List.append_assoc]
      refine ih ?_
      by_cases hc : c = '"'
      · subst hc
        exact h.doubled
      · have hsingle : encode [c] = String.utf8EncodeChar c := List.append_nil _
        rw [if_neg hc, hsingle]
        refine h.run _ fun b hb s field hs => hs.inside fun hquote => hc ?_
        have hbyte := Text.Utf8.eq_of_mem_encodeChar hb (by rw [hquote]; decide)
        rw [← Char.ofNat_toNat c, ← hbyte, hquote]
        rfl

end State.At

/-- Which bytes a field without quotes does not have. -/
theorem plain_of_mem_encode (h : cs.any needsQuotes = false) {b : UInt8} (hb : b ∈ encode cs) :
    b ≠ comma ∧ b ≠ quote ∧ isTerminator b = false := by
  -- a byte below 0x80 is a character of the text itself
  have hspecial (b' : UInt8) (hlow : b'.toNat < 0x80)
      (hneeds : needsQuotes (Char.ofNat b'.toNat) = true) : b ≠ b' := by
    rintro rfl
    exact absurd hneeds (List.any_eq_false.mp h _ (Text.Utf8.mem_of_mem_encode hb hlow))
  refine ⟨hspecial _ (by decide) rfl, hspecial _ (by decide) rfl, ?_⟩
  simp [isTerminator, hspecial lineFeed (by decide) rfl,
    hspecial carriageReturn (by decide) rfl]

/-- A field that is written at the start of a field is read as itself. Only an empty field at the
start of a record leaves the reader between records. -/
theorem State.At.written (h : s.At mode [] fields rows)
    (hmode : mode = .startRecord ∨ mode = .startField) (cs : List Char) :
    ∃ mode', ((encode (writeField cs)).foldl State.step s).At mode' (encode cs).reverse fields
        rows ∧ mode' ≠ .inQuotes ∧ (mode' = .startRecord → mode = .startRecord ∧ cs = []) := by
  have hstart : mode ≠ .inQuotes := by rcases hmode with rfl | rfl <;> decide
  rw [writeField]
  cases hneeds : cs.any needsQuotes with
  | true =>
      rw [if_pos rfl, List.cons_append, ← List.singleton_append, Text.Utf8.encode_append,
        Text.Utf8.encode_append, List.foldl_append, List.foldl_append]
      have hread := (h.opening hmode).quoted cs
      rw [List.append_nil] at hread
      exact ⟨.afterQuote, hread.closing, by decide, nofun⟩
  | false =>
      rw [if_neg (by decide)]
      rcases eq_or_ne cs [] with rfl | hne
      · exact ⟨mode, h, hstart, fun hrecord => ⟨hrecord, rfl⟩⟩
      · have hread := h.bare hstart (fun b hb => plain_of_mem_encode hneeds hb) hne
        rw [List.append_nil] at hread
        exact ⟨.inField, hread, by decide, nofun⟩

/-! ### Records -/

theorem fieldsText_cons_cons (f g : List Char) (rest : List (List Char)) :
    fieldsText (f :: g :: rest) = writeField f ++ ',' :: fieldsText (g :: rest) :=
  rfl

/-- The fields of a record up to its line feed, from where a field starts. -/
theorem State.At.fieldsText (h : s.At mode [] fields rows)
    (hmode : mode = .startRecord ∨ mode = .startField) (f : List Char) (rest : List (List Char))
    (hempty : mode = .startRecord → f :: rest ≠ [[]]) :
    ((encode (fieldsText (f :: rest) ++ ['\n'])).foldl State.step s).At .startRecord [] []
      ((fields.reverse ++ (f :: rest).map encode) :: rows) := by
  -- on the fields that follow; the first field may start a record, the others follow a comma
  induction rest generalizing s mode f fields with
  | nil =>
      obtain ⟨mode', hread, hquotes, hstart⟩ := h.written hmode f
      rw [Text.Utf8.encode_append, List.foldl_append]
      have hended := hread.lineFeed hquotes fun hrecord => by
        obtain ⟨hrecord, rfl⟩ := hstart hrecord
        exact hempty hrecord rfl
      rwa [List.reverse_reverse] at hended
  | cons g rest ih =>
      obtain ⟨mode', hread, hquotes, -⟩ := h.written hmode f
      have hended := hread.comma hquotes
      have hnext := ih hended (.inr rfl) g nofun
      rw [List.reverse_reverse, List.reverse_cons, List.append_assoc] at hnext
      rw [fieldsText_cons_cons, List.append_assoc, Text.Utf8.encode_append, List.foldl_append,
        List.cons_append, ← List.singleton_append, Text.Utf8.encode_append, List.foldl_append]
      exact hnext

theorem State.At.record (h : s.At .startRecord [] [] rows) {fs : List (List Char)}
    (hne : fs ≠ []) :
    ((encode (recordText fs)).foldl State.step s).At .startRecord [] []
      (fs.map encode :: rows) := by
  rw [recordText]
  split_ifs with hlone
  · subst hlone
    exact ((h.opening (.inl rfl)).closing).lineFeed (by decide) (by decide)
  · obtain ⟨f, rest, rfl⟩ := List.exists_cons_of_ne_nil hne
    exact h.fieldsText (.inl rfl) f rest fun _ => hlone

theorem State.At.records (h : s.At .startRecord [] [] rows) (records : List (List (List Char)))
    (hne : ∀ fs ∈ records, fs ≠ []) :
    ((encode (records.flatMap recordText)).foldl State.step s).At .startRecord [] []
      ((records.map (·.map encode)).reverse ++ rows) := by
  induction records generalizing s rows with
  | nil => exact h
  | cons fs records ih =>
      obtain ⟨hfs, hrest⟩ := List.forall_mem_cons.mp hne
      rw [List.flatMap_cons, Text.Utf8.encode_append, List.foldl_append, List.map_cons,
        List.reverse_cons, List.append_assoc]
      exact ih (h.record hfs) hrest

/-! ### Whole texts -/

theorem toList_write (records : List (List String)) :
    (write records).toList = (records.map (·.map String.toList)).flatMap recordText := by
  induction records with
  | nil => rfl
  | cons fs records ih =>
      rw [write, List.map_cons, String.join_cons, String.toList_append, List.map_cons,
        List.flatMap_cons, ← ih, writeRecord, String.toList_ofList]
      rfl

/-- A text has the bytes of the mark only if it begins with the mark. -/
theorem not_byteOrderMark_prefix (h : cs.head? ≠ some '\uFEFF') :
    byteOrderMark.isPrefixOf (encode cs) = false := by
  refine Bool.eq_false_iff.mpr fun hmark => ?_
  obtain ⟨rest, hrest⟩ := List.isPrefixOf_iff_prefix.mp hmark
  cases cs with
  | nil => cases hrest
  | cons c cs =>
      obtain ⟨b, tail, hc, hfirst⟩ := Text.Utf8.first_encode c (encode cs)
      rw [encode, List.flatMap_cons, hc] at hrest
      obtain ⟨rfl, htail⟩ := List.cons_eq_cons.mp hrest
      rw [show tail ++ encode cs = _ from htail.symm] at hfirst
      have hvalue : (Text.Utf8.first 0xEF ([0xBB, 0xBF] ++ rest)).1 = some '\uFEFF' := by
        cases rest <;> rfl
      exact h ((congrArg Prod.fst hfirst).symm.trans hvalue)

/-- The fields of every record as text; nothing when some field is not text. -/
def texts? (s : String) : Option (List (List String)) :=
  (read s.toUTF8.toList).mapM fun r => r.fields.mapM fun bytes =>
    (Text.Utf8.decode? bytes).map String.ofList

theorem read_write {records : List (List String)} (hne : ∀ fs ∈ records, fs ≠ [])
    (hmark : (write records).toList.head? ≠ some '\uFEFF') :
    (read (write records).toUTF8.toList).map Record.fields =
      records.map (·.map fun f => encode f.toList) := by
  have hstart : State.At ⟨.startRecord, [], [], [], ⟨0, 1, 0⟩, 1, 0⟩ .startRecord [] [] [] :=
    ⟨rfl, rfl, rfl, rfl⟩
  have hread := hstart.records (records.map (·.map String.toList)) (by simpa using hne)
  rw [Text.Utf8.toList_toUTF8, read, not_byteOrderMark_prefix hmark, if_neg (by decide),
    List.drop_zero, toList_write, State.finish, hread.mode]
  dsimp only
  rw [List.map_reverse, hread.rows, List.append_nil, List.reverse_reverse, List.map_map]
  simp

/-- Records that were written are read back, whatever their fields hold. -/
theorem texts?_write {records : List (List String)} (hne : ∀ fs ∈ records, fs ≠ [])
    (hmark : (write records).toList.head? ≠ some '\uFEFF') :
    texts? (write records) = some records := by
  have hfield (f : String) : (Text.Utf8.decode? (encode f.toList)).map String.ofList = some f := by
    rw [Text.Utf8.decode?_encode, Option.map_some, String.ofList_toList]
  have hrecord (fs : List String) : (fs.map fun f => encode f.toList).mapM
      (fun bytes => (Text.Utf8.decode? bytes).map String.ofList) = some fs := by
    induction fs with
    | nil => rfl
    | cons f fs ih => simp [hfield, ih]
  have hall : texts? (write records) = ((read (write records).toUTF8.toList).map
      Record.fields).mapM fun fs => fs.mapM fun bytes =>
        (Text.Utf8.decode? bytes).map String.ofList := by
    rw [texts?, List.mapM_map]
    rfl
  rw [hall, read_write hne hmark]
  clear hall hne hmark
  induction records with
  | nil => rfl
  | cons fs records ih => simp [hrecord, ih]

end Culprit.Csv
