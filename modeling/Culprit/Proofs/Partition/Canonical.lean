import Culprit.Proofs.Partition.Accepted
import Culprit.Proofs.Text.Quoting
import Mathlib.Data.String.Basic
import Mathlib.Data.List.Sort

/-!
What the canonical text of a partition tells. It is read line by line: the scope, whose path is
quoted, and then one key a line. A key may hold line breaks; as long as no key holds the beginning
of another line, the text tells the scope and both sets of keys.

A partition divides its candidates in two: each of them is on exactly one side, and nothing else is
on either. Its signature depends on nothing but the two sets of keys, so neither the order of the
candidates nor that of the variant keys changes it.
-/

namespace Culprit

namespace Scope

theorem identity_units : Scope.units.identity = "Units" := rfl

theorem identity_symbols (path : String) : (Scope.symbols path).identity =
    "Symbols \x7b unit: " ++ Text.Escaped.quote path ++ " \x7d" := rfl

/-- The scope can be read off a text that begins with it. -/
theorem identity_append_inj {a b : Scope} {xs ys : List Char}
    (h : a.identity.toList ++ xs = b.identity.toList ++ ys) : a = b ∧ xs = ys := by
  cases a with
  | units =>
      cases b with
      | units => exact ⟨rfl, List.append_cancel_left h⟩
      | symbols v => simp [identity_units, identity_symbols, String.toList_append] at h
  | symbols u =>
      cases b with
      | units => simp [identity_units, identity_symbols, String.toList_append] at h
      | symbols v =>
          simp only [identity_symbols, String.toList_append, List.append_assoc] at h
          obtain ⟨rfl, hrest⟩ := Text.Escaped.quote_append_inj (List.append_cancel_left h)
          exact ⟨rfl, List.append_cancel_left hrest⟩

end Scope

namespace Partition

/-! ### The order of the keys -/

theorem sublist_eraseDups {α : Type} [DecidableEq α] : (l : List α) → l.eraseDups.Sublist l
  | [] => List.Sublist.refl _
  | a :: l => by
      rw [List.eraseDups_cons]
      exact ((sublist_eraseDups _).trans List.filter_sublist).cons_cons a
termination_by l => l.length
decreasing_by exact Nat.lt_succ_of_le (List.length_filter_le _ _)

theorem nodup_eraseDups {α : Type} [DecidableEq α] : (l : List α) → l.eraseDups.Nodup
  | [] => List.nodup_nil
  | a :: l => by
      rw [List.eraseDups_cons]
      refine List.nodup_cons.mpr ⟨fun hmem => ?_, nodup_eraseDups _⟩
      simp [List.mem_eraseDups] at hmem
termination_by l => l.length
decreasing_by exact Nat.lt_succ_of_le (List.length_filter_le _ _)

theorem mem_sortedKeys {keys : List String} {key : String} :
    key ∈ sortedKeys keys ↔ key ∈ keys := by
  rw [sortedKeys, List.mem_eraseDups, List.mem_mergeSort]

theorem pairwise_sortedKeys (keys : List String) : (sortedKeys keys).Pairwise (· ≤ ·) :=
  (List.pairwise_mergeSort' (· ≤ ·) keys).sublist (sublist_eraseDups _)

/-- Ascending keys stay as they are. -/
theorem sortedKeys_of_pairwise {keys : List String} (h : keys.Pairwise (· < ·)) :
    sortedKeys keys = keys := by
  have hperm : (sortedKeys keys).Perm keys :=
    (List.perm_ext_iff_of_nodup (nodup_eraseDups _) (h.imp ne_of_lt)).mpr fun _ => mem_sortedKeys
  exact hperm.eq_of_pairwise (fun _ _ _ _ => le_antisymm) (pairwise_sortedKeys _)
    (h.imp le_of_lt)

/-- Only the set of the keys counts, neither their order nor how often each is there. -/
theorem sortedKeys_eq_iff {keys keys' : List String} :
    sortedKeys keys = sortedKeys keys' ↔ ∀ key, key ∈ keys ↔ key ∈ keys' := by
  constructor
  · intro h key
    rw [← mem_sortedKeys, h, mem_sortedKeys]
  · intro h
    have hperm : (sortedKeys keys).Perm (sortedKeys keys') :=
      (List.perm_ext_iff_of_nodup (nodup_eraseDups _) (nodup_eraseDups _)).mpr fun key => by
        rw [← sortedKeys, ← sortedKeys, mem_sortedKeys, mem_sortedKeys, h]
    exact hperm.eq_of_pairwise (fun _ _ _ _ => le_antisymm) (pairwise_sortedKeys _)
      (pairwise_sortedKeys _)

/-! ### Lines -/

/-- The key holds the beginning of another line. -/
def Forges (key : String) : Prop :=
  ['\n', 'v', ':'] <:+: key.toList ∨ ['\n', 't', ':'] <:+: key.toList

instance : DecidablePred Forges :=
  fun key => inferInstanceAs (Decidable (['\n', 'v', ':'] <:+: key.toList ∨ _))

/-- A tag and a key. -/
abbrev Entry : Type := Char × String

namespace Entry

def line (e : Entry) : List Char :=
  e.1 :: ':' :: e.2.toList ++ ['\n']

structure Plain (e : Entry) : Prop where
  tag : e.1 = 'v' ∨ e.1 = 't'
  key : ¬Forges e.2

theorem flatMap_line_cons (e : Entry) (es : List Entry) :
    (e :: es).flatMap line = e.1 :: ':' :: (e.2.toList ++ '\n' :: es.flatMap line) := by
  simp [line]

/-- A key that goes on after the line break at which another one ends would forge a line. -/
theorem eq_nil_of_break (cs : List Char) {more xs : List Char} {es : List Entry}
    (hes : ∀ e ∈ es, e.Plain)
    (hplain : ¬Forges (String.ofList (cs ++ more)))
    (h : '\n' :: es.flatMap line = more ++ '\n' :: xs) : more = [] := by
  cases more with
  | nil => rfl
  | cons c more =>
      obtain ⟨rfl, hlines⟩ := List.cons_eq_cons.mp h
      cases es with
      | nil => simp at hlines
      | cons e es =>
          have htag := (hes e List.mem_cons_self).tag
          rw [flatMap_line_cons] at hlines
          -- What it goes on with is the tag and the colon of the next line.
          match more with
          | [] => rcases htag with htag | htag <;> simp [htag] at hlines
          | [d] => simp at hlines
          | d :: d' :: more =>
              obtain ⟨rfl, rfl, -⟩ : e.1 = d ∧ ':' = d' ∧ _ := by simpa using hlines
              have hinfix : ['\n', e.1, ':'] <:+: cs ++ '\n' :: e.1 :: ':' :: more :=
                ⟨cs, more, by simp⟩
              refine absurd ?_ hplain
              rw [Forges, String.toList_ofList]
              rcases htag with htag | htag <;> rw [htag] at hinfix ⊢
              · exact .inl hinfix
              · exact .inr hinfix

theorem line_append_inj {e e' : Entry} {es es' : List Entry} (he : ¬Forges e.2)
    (he' : ¬Forges e'.2) (hes : ∀ e ∈ es, e.Plain) (hes' : ∀ e ∈ es', e.Plain)
    (h : e.line ++ es.flatMap line = e'.line ++ es'.flatMap line) :
    e = e' ∧ es.flatMap line = es'.flatMap line := by
  obtain ⟨tag, key⟩ := e
  obtain ⟨tag', key'⟩ := e'
  simp only [line, List.cons_append, List.append_assoc, List.nil_append, List.cons.injEq,
    true_and] at h
  obtain ⟨rfl, hkeys⟩ := h
  have hsame : key.toList = key'.toList := by
    rcases List.append_eq_append_iff.mp hkeys with ⟨more, hmore, hrest⟩ | ⟨more, hmore, hrest⟩
    · have hnil := eq_nil_of_break key.toList hes (by rwa [← hmore, String.ofList_toList]) hrest
      rw [hmore, hnil, List.append_nil]
    · have hnil := eq_nil_of_break key'.toList hes' (by rwa [← hmore, String.ofList_toList]) hrest
      rw [hmore, hnil, List.append_nil]
  rw [hsame] at hkeys
  rw [String.toList_inj.mp hsame]
  exact ⟨rfl, List.tail_eq_of_cons_eq (List.append_cancel_left hkeys)⟩

/-- The lines can be read back. -/
theorem flatMap_line_inj {es es' : List Entry} (hes : ∀ e ∈ es, e.Plain)
    (hes' : ∀ e ∈ es', e.Plain) (h : es.flatMap line = es'.flatMap line) : es = es' := by
  induction es generalizing es' with
  | nil =>
      cases es' with
      | nil => rfl
      | cons e es' => simp [line] at h
  | cons e es ih =>
      cases es' with
      | nil => simp [line] at h
      | cons e' es' =>
          obtain ⟨he, htail⟩ := List.forall_mem_cons.mp hes
          obtain ⟨he', htail'⟩ := List.forall_mem_cons.mp hes'
          rw [List.flatMap_cons, List.flatMap_cons] at h
          obtain ⟨rfl, hrest⟩ := line_append_inj he.key he'.key htail htail' h
          rw [ih htail htail' hrest]

end Entry

/-! ### The whole text -/

/-- The lines after the scope. -/
def entries (p : Partition) : List Entry :=
  (sortedKeys p.variant).map ('v', ·) ++ (sortedKeys p.trusted).map ('t', ·)

/-- No key holds the beginning of a line. -/
def Plain (p : Partition) : Prop :=
  ∀ key ∈ p.variant ++ p.trusted, ¬Forges key

instance : DecidablePred Plain :=
  fun p => inferInstanceAs (Decidable (∀ key ∈ p.variant ++ p.trusted, ¬Forges key))

/-- The same keys on each side, in whatever order. -/
structure Same (p q : Partition) : Prop where
  scope : p.scope = q.scope
  variant (key : String) : key ∈ p.variant ↔ key ∈ q.variant
  trusted (key : String) : key ∈ p.trusted ↔ key ∈ q.trusted

variable {p q : Partition}

theorem Plain.entries (h : p.Plain) : ∀ e ∈ p.entries, e.Plain := by
  intro e he
  rcases List.mem_append.mp he with he | he
  · obtain ⟨key, hkey, rfl⟩ := List.mem_map.mp he
    exact ⟨.inl rfl, h key (List.mem_append_left _ (mem_sortedKeys.mp hkey))⟩
  · obtain ⟨key, hkey, rfl⟩ := List.mem_map.mp he
    exact ⟨.inr rfl, h key (List.mem_append_right _ (mem_sortedKeys.mp hkey))⟩

theorem toList_canonical (p : Partition) :
    p.canonical.toList = p.scope.identity.toList ++ '\n' :: p.entries.flatMap Entry.line := by
  have hline (tag : String) (c : Char) (htag : tag.toList = [c]) (keys : List String) :
      (keys.map (canonicalLine tag)).flatMap String.toList =
        (keys.map fun key => (c, key)).flatMap Entry.line := by
    simp [List.flatMap_map, canonicalLine, Entry.line, String.toList_append, htag]
  rw [canonical, String.toList_join, List.flatMap_append, List.flatMap_cons, List.flatMap_cons,
    hline "v" 'v' rfl, hline "t" 't' rfl, entries, List.flatMap_append]
  simp

/-- Each side can be told from the tags. -/
theorem entries_inj (h : p.entries = q.entries) :
    sortedKeys p.variant = sortedKeys q.variant ∧ sortedKeys p.trusted = sortedKeys q.trusted := by
  have hside (tag : Char) := congrArg (fun es => (es.filter fun e => e.1 = tag).map (·.2)) h
  have hvariant := hside 'v'
  have htrusted := hside 't'
  simp only [entries, List.filter_append, List.filter_map, List.map_append, List.map_map,
    Function.comp_def] at hvariant htrusted
  simpa using And.intro hvariant htrusted

theorem canonical_congr (h : p.Same q) : p.canonical = q.canonical := by
  rw [canonical, canonical, h.scope, sortedKeys_eq_iff.mpr h.variant,
    sortedKeys_eq_iff.mpr h.trusted]

theorem same_of_canonical (hp : p.Plain) (hq : q.Plain) (h : p.canonical = q.canonical) :
    p.Same q := by
  have htext := congrArg String.toList h
  rw [toList_canonical, toList_canonical] at htext
  obtain ⟨hscope, hlines⟩ := Scope.identity_append_inj htext
  have hentries := Entry.flatMap_line_inj hp.entries hq.entries
    (List.tail_eq_of_cons_eq hlines)
  obtain ⟨hvariant, htrusted⟩ := entries_inj hentries
  exact ⟨hscope, sortedKeys_eq_iff.mp hvariant, sortedKeys_eq_iff.mp htrusted⟩

/-- A key that holds a line can stand on either side of another one. -/
theorem canonical_forged (scope : Scope) (key : String) :
    (⟨scope, [key], [key ++ "\nt:" ++ key]⟩ : Partition).canonical =
      (⟨scope, [key ++ "\nt:" ++ key], [key]⟩ : Partition).canonical := by
  have hone (k : String) : sortedKeys [k] = [k] := by
    simp [sortedKeys, List.eraseDups_cons]
  refine String.toList_inj.mp ?_
  simp [toList_canonical, entries, hone, Entry.line, String.toList_append]

/-! ### Bipartitions -/

variable {scope : Scope} {candidates candidates' variant variant' : List String}

/-- The variant side is the given list, the trusted side what the list leaves of the candidates, in
their order. -/
structure Bipartition (scope : Scope) (candidates variant : List String) (p : Partition) :
    Prop where
  scope_eq : p.scope = scope
  variant_eq : p.variant = variant
  trusted_eq : p.trusted = candidates.filter (· ∉ variant)
  disjoint : p.variant.Disjoint p.trusted
  cover (key : String) : key ∈ p.variant ∨ key ∈ p.trusted ↔ key ∈ candidates
  isVariant_iff (key : String) : p.isVariant key = true ↔ key ∈ variant

theorem bipartition_of_ok (h : of scope candidates variant = .ok p) :
    Bipartition scope candidates variant p := by
  have hsub := subset_of_ok h
  have hapart := (disjoint_of_ok h).symm
  obtain rfl := eq_of_ok h
  refine ⟨rfl, rfl, rfl, hapart, fun key => ?_, fun key => decide_eq_true_iff⟩
  by_cases hkey : key ∈ variant
  · simp [hkey, hsub hkey]
  · simp [hkey]

/-- The orders in which candidates and keys are given do not tell partitions apart. -/
theorem Bipartition.same (hp : Bipartition scope candidates variant p)
    (hq : Bipartition scope candidates' variant' q) (hcandidates : candidates'.Perm candidates)
    (hvariant : variant'.Perm variant) : q.Same p where
  scope := hq.scope_eq.trans hp.scope_eq.symm
  variant key := by rw [hq.variant_eq, hp.variant_eq, hvariant.mem_iff]
  trusted key := by simp [hq.trusted_eq, hp.trusted_eq, hcandidates.mem_iff, hvariant.mem_iff]

theorem signature_congr (h : p.Same q) : p.signature = q.signature := by
  rw [signature, signature, canonical_congr h]

/-- A list is accepted if and only if it has only candidates, each of them at most once. It then
makes a bipartition of the candidates, and no other order of either list changes the signature. -/
theorem of_bipartition (scope : Scope) (candidates variant : List String) :
    ((∃ p, of scope candidates variant = .ok p) ↔ variant ⊆ candidates ∧ variant.Nodup) ∧
      ∀ p, of scope candidates variant = .ok p → Bipartition scope candidates variant p ∧
        ∀ candidates' variant', candidates'.Perm candidates → variant'.Perm variant →
          ∃ q, of scope candidates' variant' = .ok q ∧ q.signature = p.signature := by
  refine ⟨of_ok_iff, fun p h => ⟨bipartition_of_ok h, fun candidates' variant' hc hv => ?_⟩⟩
  obtain ⟨hsub, hnodup⟩ := of_ok_iff.mp ⟨p, h⟩
  have hsub' : variant' ⊆ candidates' := fun key hkey => hc.mem_iff.mpr (hsub (hv.mem_iff.mp hkey))
  obtain ⟨q, hq⟩ : ∃ q, of scope candidates' variant' = .ok q :=
    of_ok_iff.mpr ⟨hsub', hv.nodup_iff.mpr hnodup⟩
  exact ⟨q, hq, signature_congr ((bipartition_of_ok h).same (bipartition_of_ok hq) hc hv)⟩

theorem of_bipartition_swapped :
    let p : Partition := ⟨.symbols "a.c", ["third", "first"], ["second", "second"]⟩
    let q : Partition := ⟨.symbols "a.c", ["first", "third"], ["second", "second"]⟩
    of (.symbols "a.c") ["first", "second", "third", "second"] ["third", "first"] = .ok p ∧
      of (.symbols "a.c") ["second", "third", "second", "first"] ["first", "third"] = .ok q ∧
      q.signature = p.signature := by
  intro p q
  have hp : of (.symbols "a.c") ["first", "second", "third", "second"] ["third", "first"] = .ok p :=
    by decide
  have hq : of (.symbols "a.c") ["second", "third", "second", "first"] ["first", "third"] = .ok q :=
    by decide
  obtain ⟨-, hbipartition⟩ := of_bipartition (.symbols "a.c") ["first", "second", "third", "second"]
    ["third", "first"]
  obtain ⟨q', hq', hsignature⟩ := (hbipartition p hp).2 ["second", "third", "second", "first"]
    ["first", "third"] (by decide) (by decide)
  obtain rfl : q = q' := Except.ok.inj (hq.symm.trans hq')
  exact ⟨hp, hq, hsignature⟩

end Partition

end Culprit
