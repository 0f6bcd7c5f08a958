import Culprit.Json.Decode
import Culprit.Proofs.Json.RoundTrip
import Mathlib.Data.List.Nodup

/-!
Records read back from their fields. What is written under different keys is found under these
keys, also when fields without a value are left out.
-/

namespace Culprit.Json

/-! ### Single values -/

/-- What was written can be read back: the text says what it is, and the value is the one that was
written. -/
structure Restores {α : Type} (item : Json → Option α) (j : Json) (a : α) : Prop where
  faithful : j.Faithful
  read : item j = some a
  ne_null : j ≠ .null

namespace Restores

variable {α : Type} {item : Json → Option α} {encode : α → Json}

theorem natural {bound n : Nat} (h : n < bound) :
    Restores (natural? bound) (.integer n) n where
  faithful := trivial
  read := by
    rw [natural?, if_pos (by omega)]
    rfl
  ne_null := nofun

theorem string (s : String) : Restores string? (.string s) s :=
  ⟨trivial, rfl, nofun⟩

theorem bool (b : Bool) : Restores bool? (.bool b) b :=
  ⟨trivial, rfl, nofun⟩

theorem real {x : Float} (h : Exact x) : Restores real? (.real x) x where
  faithful := h
  read := by simp [real?, h.finite.1]
  ne_null := nofun

theorem array {items : List α} (h : ∀ a ∈ items, Restores item (encode a) a) :
    Restores (array? item) (.array (items.map encode)) items where
  faithful := by
    rw [faithful_array]
    intro j hj
    obtain ⟨a, ha, rfl⟩ := List.mem_map.mp hj
    exact (h a ha).faithful
  read := by
    show (items.map encode).mapM item = some items
    induction items with
    | nil => rfl
    | cons a items ih =>
        obtain ⟨ha, hitems⟩ := List.forall_mem_cons.mp h
        rw [List.map_cons, List.mapM_cons, ha.read, ih hitems]
        rfl
  ne_null := nofun

/-- Words that are all different. -/
theorem word {values : List α} {name : α → String} (hdistinct : (values.map name).Nodup) {a : α}
    (ha : a ∈ values) : Restores (oneOf? values name) (.string (name a)) a where
  faithful := trivial
  read := by
    show values.find? (fun v => name v = name a) = some a
    induction values with
    | nil => cases ha
    | cons v values ih =>
        obtain ⟨hnew, hrest⟩ := List.nodup_cons.mp hdistinct
        rcases List.mem_cons.mp ha with rfl | hmem
        · exact List.find?_cons_of_pos (by simp)
        · have hne : name v ≠ name a := fun heq => hnew (heq ▸ List.mem_map_of_mem hmem)
          rw [List.find?_cons_of_neg (by simpa using hne)]
          exact ih hrest hmem
  ne_null := nofun

end Restores

/-! ### Fields -/

/-- The fields with a value, in order. -/
def presentFields (fields : List (String × Option Json)) : Fields :=
  fields.filterMap fun p => p.2.map fun j => (p.1, j)

section Fields

variable {fields : List (String × Option Json)} {key : String}

theorem presentFields_cons (p : String × Option Json) (fields : List (String × Option Json)) :
    presentFields (p :: fields) = p.2.toList.map (p.1, ·) ++ presentFields fields := by
  obtain ⟨k, _ | j⟩ := p <;> rfl

theorem keys_presentFields (fields : List (String × Option Json)) :
    ((presentFields fields).map (·.1)).Sublist (fields.map (·.1)) := by
  induction fields with
  | nil => exact List.Sublist.slnil
  | cons p fields ih =>
      obtain ⟨k, _ | j⟩ := p
      · exact ih.cons k
      · exact ih.cons_cons k

theorem lookup_presentFields (h : (fields.map (·.1)).Nodup) :
    (presentFields fields).lookup key = (fields.lookup key).join := by
  induction fields with
  | nil => rfl
  | cons p fields ih =>
      obtain ⟨hnew, hrest⟩ := List.nodup_cons.mp h
      obtain ⟨k, j?⟩ := p
      rw [presentFields_cons, List.lookup_append, ih hrest, List.lookup_cons]
      by_cases hkey : key = k
      · subst hkey
        have hnone : fields.lookup key = none := by
          rw [List.lookup_eq_none_iff]
          intro p hp
          refine bne_iff_ne.mpr fun heq => hnew ?_
          exact List.mem_map.mpr ⟨p, hp, heq.symm⟩
        cases j? <;> simp [hnone]
      · have hpast : (key == k) = false := beq_eq_false_iff_ne.mpr hkey
        cases j? <;> simp [List.lookup_cons, hpast]

theorem countKey_le_one {f : Fields} (h : (f.map (·.1)).Nodup) (key : String) :
    countKey f key ≤ 1 := by
  have hcount := List.nodup_iff_count_le_one.mp h key
  rw [List.count, List.countP_map] at hcount
  rw [countKey, ← List.countP_eq_length_filter]
  exact hcount

/-- The fields that were read are these. -/
def Fields.Hold (f : Fields) (fields : List (String × Option Json)) : Prop :=
  ∀ key, f.lookup key = (fields.lookup key).join

/-- A record that was written under different keys is read as its fields. -/
theorem read_fields {α : Type} {needed : Nat} {known : List String} {next : Fields → Option α}
    {a : α} (hknown : known.Nodup) (hkeys : fields.map (·.1) = known)
    (h : ∀ f, f.Hold fields → next f = some a) :
    (do let f ← fieldsFrom? needed known (present fields); next f) = some a := by
  have hdistinct : (fields.map (·.1)).Nodup := hkeys ▸ hknown
  have honce : ∀ key, countKey (presentFields fields) key ≤ 1 :=
    countKey_le_one ((keys_presentFields fields).nodup hdistinct)
  have hfields : fieldsFrom? needed known (present fields) = some (presentFields fields) := by
    show (if known.all (fun k => countKey (presentFields fields) k ≤ 1) then _ else _) = _
    rw [if_pos (by simp [honce])]
    rfl
  rw [hfields]
  exact h _ fun key => lookup_presentFields hdistinct

/-- One field after the other. -/
theorem read_next {α β : Type} {a? : Option α} {a : α} {next : α → Option β} {b : β}
    (ha : a? = some a) (hnext : next a = some b) : (do let a ← a?; next a) = some b := by
  rw [ha]
  exact hnext

theorem faithful_of_mem_map {α : Type} {a? : Option α} {encode : α → Json} :
    (∀ j ∈ a?.map encode, j.Faithful) ↔ ∀ a ∈ a?, (encode a).Faithful := by
  cases a? <;> simp

theorem faithful_present (h : ∀ p ∈ fields, ∀ j ∈ p.2, j.Faithful) : (present fields).Faithful := by
  refine faithful_object.mpr fun p hp => ?_
  obtain ⟨⟨k, j?⟩, hmem, hpair⟩ := List.mem_filterMap.mp hp
  obtain ⟨j, hj, rfl⟩ := Option.map_eq_some_iff.mp hpair
  exact h _ hmem j hj

theorem read_optional? {α : Type} {item : Json → Option α} {j : Json} {a : α}
    (ha : Restores item j a) : Json.optional? item j = some (some a) := by
  rw [Json.optional?]
  · rw [ha.read]
    rfl
  · exact ha.ne_null

namespace Fields.Hold

variable {α : Type} {f : Fields} {item : Json → Option α}

theorem required? (h : f.Hold fields) {j : Json} {a : α} (hkey : fields.lookup key = some (some j))
    (ha : Restores item j a) : f.required? key item = some a := by
  rw [Fields.required?, h key, hkey]
  exact ha.read

theorem withDefault? (h : f.Hold fields) {j : Json} {a standard : α}
    (hkey : fields.lookup key = some (some j)) (ha : Restores item j a) :
    f.withDefault? key standard item = some a := by
  rw [Fields.withDefault?, h key, hkey]
  exact ha.read

/-- A field that is written as null when it has no value. -/
theorem nullable? (h : f.Hold fields) {encode : α → Json} {a? : Option α}
    (hkey : fields.lookup key = some (some ((a?.map encode).getD .null)))
    (ha : ∀ a ∈ a?, Restores item (encode a) a) : f.optional? key item = some a? := by
  rw [Fields.optional?, Fields.withDefault?, h key, hkey]
  cases a? with
  | none => rfl
  | some a => exact read_optional? (ha a rfl)

theorem optional? (h : f.Hold fields) {encode : α → Json} {a? : Option α}
    (hkey : fields.lookup key = some (a?.map encode))
    (ha : ∀ a ∈ a?, Restores item (encode a) a) : f.optional? key item = some a? := by
  rw [Fields.optional?, Fields.withDefault?, h key, hkey]
  cases a? with
  | none => rfl
  | some a => exact read_optional? (ha a rfl)

end Fields.Hold

/-! ### Values with the same text -/

/-- The two are written alike. -/
def SameText (j j' : Json) : Prop :=
  ∀ level, prettyAt level j = prettyAt level j'

/-- What is written like something that can be read back is read as that. -/
theorem SameText.read_pretty {α : Type} {item : Json → Option α} {j j' : Json} {a : α}
    (h : SameText j j') (ha : Restores item j' a) : (parse? j.pretty).bind item = some a := by
  rw [pretty, h 0, ← pretty, parse?_pretty ha.faithful]
  exact ha.read

theorem sameText_array {α : Type} {items : List α} {encode encode' : α → Json}
    (h : ∀ a ∈ items, SameText (encode a) (encode' a)) :
    SameText (.array (items.map encode)) (.array (items.map encode')) := by
  intro level
  have hitems : (items.map encode).map (prettyAt (level + 1)) =
      (items.map encode').map (prettyAt (level + 1)) := by
    rw [List.map_map, List.map_map]
    exact List.map_congr_left fun a ha => h a ha (level + 1)
  rw [prettyAt, prettyAt, prettyItems_eq, prettyItems_eq, hitems]

/-- One field of a record. -/
theorem sameText_present (fields rest : List (String × Option Json)) (key : String) {j j' : Json}
    (h : SameText j j') : SameText (present (fields ++ (key, some j) :: rest))
      (present (fields ++ (key, some j') :: rest)) := by
  intro level
  simp [present, prettyAt, prettyFields_eq, List.filterMap_append, h (level + 1)]

end Fields

end Culprit.Json
