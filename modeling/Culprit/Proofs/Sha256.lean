import Culprit.Sha256

/-!
The digest by arithmetic of natural numbers. A word of 32 bits is a bounded number inside a vector
inside a structure, and an evaluation opens all of these at every step of every round. The values of
the words need none of that: `hexOfText_eq` has the same digest from them.
-/

namespace Culprit.Sha256

/-- The values of the eight chaining words. -/
structure Values where
  a : Nat
  b : Nat
  c : Nat
  d : Nat
  e : Nat
  f : Nat
  g : Nat
  h : Nat

def Words.values (s : Words) : Values :=
  ⟨s.a.toNat, s.b.toNat, s.c.toNat, s.d.toNat, s.e.toNat, s.f.toNat, s.g.toNat, s.h.toNat⟩

namespace Values

def add (x y : Values) : Values where
  a := (x.a + y.a) % UInt32.size
  b := (x.b + y.b) % UInt32.size
  c := (x.c + y.c) % UInt32.size
  d := (x.d + y.d) % UInt32.size
  e := (x.e + y.e) % UInt32.size
  f := (x.f + y.f) % UInt32.size
  g := (x.g + y.g) % UInt32.size
  h := (x.h + y.h) % UInt32.size

def rotate (x n : Nat) : Nat :=
  x >>> n ||| x <<< (32 - n) % UInt32.size

def round (s : Values) (k w : Nat) : Values :=
  let s1 := rotate s.e 6 ^^^ rotate s.e 11 ^^^ rotate s.e 25
  let choice := (s.e &&& s.f) ^^^ ((UInt32.size - 1 - s.e) &&& s.g)
  -- The sum is reduced once, in the two words that it enters.
  let t1 := s.h + s1 + choice + k + w
  let s0 := rotate s.a 2 ^^^ rotate s.a 13 ^^^ rotate s.a 22
  let majority := (s.a &&& s.b) ^^^ (s.a &&& s.c) ^^^ (s.b &&& s.c)
  ⟨(t1 + (s0 + majority)) % UInt32.size, s.a, s.b, s.c, (s.d + t1) % UInt32.size, s.e, s.f, s.g⟩

def rounds (s : Values) (ks ws : List Nat) : Values :=
  (ks.zip ws).foldl (fun t p => t.round p.1 p.2) s

/-- The word after `ws`, the latest of which comes first. -/
def next (ws : List Nat) : Nat :=
  let x := (ws[14]?).getD 0
  let y := (ws[1]?).getD 0
  let s0 := rotate x 7 ^^^ rotate x 18 ^^^ x >>> 3
  let s1 := rotate y 17 ^^^ rotate y 19 ^^^ y >>> 10
  ((ws[15]?).getD 0 + s0 + (ws[6]?).getD 0 + s1) % UInt32.size

def extend : Nat → List Nat → List Nat
  | 0, ws => ws
  | n + 1, ws => extend n (next ws :: ws)

def constants : List Nat :=
  roundConstants.toList.map UInt32.toNat

def block (message : ByteArray) (start : Nat) : List Nat :=
  (List.range 16).map fun i => (wordAt message (start + 4 * i)).toNat

def compress (message : ByteArray) (s : Values) (start : Nat) : Values :=
  s.add (s.rounds constants (extend 48 (block message start).reverse).reverse)

def digest (message : ByteArray) : Values :=
  let padded := pad message
  (List.range (padded.size / 64)).foldl (fun s i => compress padded s (64 * i)) initial.values

def toHex (s : Values) : List Char :=
  [s.a, s.b, s.c, s.d, s.e, s.f, s.g, s.h].flatMap (Text.Hex.ofNat 8)

end Values

/-! ### Rounds -/

theorem values_add (s t : Words) : (s.add t).values = s.values.add t.values := by
  simp only [Words.add, Words.values, Values.add, UInt32.toNat_add]

theorem toNat_rotate (x : UInt32) {n : UInt32} (hpos : 0 < n.toNat) (hlt : n.toNat < 32) :
    (rotate x n).toNat = Values.rotate x.toNat n.toNat := by
  have hle : n ≤ 32 := UInt32.le_iff_toNat_le.mpr (Nat.le_of_lt hlt)
  have hback : (32 - n).toNat = 32 - n.toNat := UInt32.toNat_sub_of_le _ _ hle
  have hshort : 32 - n.toNat < 32 := Nat.sub_lt (by decide) hpos
  rw [rotate, UInt32.toNat_or, UInt32.toNat_shiftRight, UInt32.toNat_shiftLeft, hback,
    Nat.mod_eq_of_lt hlt, Nat.mod_eq_of_lt hshort, Values.rotate]

theorem values_round (s : Words) (k w : UInt32) :
    (round s k w).values = s.values.round k.toNat w.toNat := by
  simp [round, Words.values, Values.round, toNat_rotate, UInt32.toNat_add, UInt32.toNat_not]

theorem values_foldl_round (ps : List (UInt32 × UInt32)) (s : Words) :
    (ps.foldl (fun t p => round t p.1 p.2) s).values =
      (ps.map (Prod.map UInt32.toNat UInt32.toNat)).foldl (fun t p => t.round p.1 p.2)
        s.values := by
  induction ps generalizing s with
  | nil => rfl
  | cons p ps ih =>
      rw [List.foldl_cons, ih, values_round, List.map_cons, List.foldl_cons, Prod.map_fst,
        Prod.map_snd]

/-! ### The schedule -/

/-- The values of a schedule, the latest word first. -/
def latest (w : Array UInt32) : List Nat :=
  (w.toList.map UInt32.toNat).reverse

theorem latest_push (w : Array UInt32) (x : UInt32) : latest (w.push x) = x.toNat :: latest w := by
  simp [latest]

theorem toNat_back {w : Array UInt32} {k : Nat} (h : k < w.size) :
    ((w[w.size - (k + 1)]?).getD 0).toNat = ((latest w)[k]?).getD 0 := by
  have hk : k < (w.toList.map UInt32.toNat).length := by simpa using h
  have hplace : w.size - 1 - k = w.size - (k + 1) := by omega
  have hback : w.size - (k + 1) < w.size := by omega
  rw [latest, List.getElem?_reverse hk]
  simp [hplace, hback]

/-- The next word reads four of the sixteen words before it. -/
theorem toNat_nextWord {w : Array UInt32} (h : 16 ≤ w.size) :
    (nextWord w).toNat = Values.next (latest w) := by
  have hback (k : Nat) (hk : k < 16) :
      ((w[w.size - (k + 1)]?).getD 0).toNat = ((latest w)[k]?).getD 0 :=
    toNat_back (Nat.lt_of_lt_of_le hk h)
  simp [nextWord, Values.next, hback, toNat_rotate]

theorem latest_foldl_push {α : Type} (steps : List α) {w : Array UInt32} (h : 16 ≤ w.size) :
    latest (steps.foldl (fun w _ => w.push (nextWord w)) w) =
      Values.extend steps.length (latest w) := by
  induction steps generalizing w with
  | nil => rfl
  | cons _ steps ih =>
      have hlarger : 16 ≤ (w.push (nextWord w)).size := by rw [Array.size_push]; omega
      rw [List.foldl_cons, ih hlarger, latest_push, toNat_nextWord h, List.length_cons,
        Values.extend]

theorem size_foldl_push {α : Type} (steps : List α) (w : Array UInt32) :
    (steps.foldl (fun w _ => w.push (nextWord w)) w).size = w.size + steps.length := by
  induction steps generalizing w with
  | nil => rfl
  | cons _ steps ih => rw [List.foldl_cons, ih, Array.size_push, List.length_cons]; omega

variable (message : ByteArray) (start : Nat)

theorem size_schedule : (schedule message start).size = 64 := by
  rw [schedule, size_foldl_push, Array.size_ofFn, List.length_range]

theorem latest_block :
    latest (Array.ofFn fun i : Fin 16 => wordAt message (start + 4 * i)) =
      (Values.block message start).reverse := by
  refine congrArg List.reverse (List.ext_getElem ?_ fun i _ _ => ?_)
  · rw [List.length_map, Array.length_toList, Array.size_ofFn, Values.block, List.length_map,
      List.length_range]
  · simp only [Values.block, List.getElem_map, List.getElem_range, Array.getElem_toList,
      Array.getElem_ofFn]

theorem latest_schedule :
    latest (schedule message start) = Values.extend 48 (Values.block message start).reverse := by
  rw [schedule, latest_foldl_push _ (Nat.le_of_eq Array.size_ofFn.symm), List.length_range,
    latest_block]

/-- Every round has its constant and its word, so that no default is read. -/
theorem round_inputs :
    (List.range 64).map (fun i =>
        ((roundConstants[i]?).getD 0, ((schedule message start)[i]?).getD 0)) =
      roundConstants.toList.zip (schedule message start).toList := by
  have hconstants : roundConstants.size = 64 := rfl
  have hwords := size_schedule message start
  refine List.ext_getElem (by simp [hconstants, hwords]) fun i hi _ => ?_
  have hlt : i < 64 := by simpa using hi
  simp [hconstants, hwords, hlt]

/-! ### The digest -/

theorem values_compress (s : Words) :
    (compress message s start).values = Values.compress message s.values start := by
  have hwords : (schedule message start).toList.map UInt32.toNat =
      (Values.extend 48 (Values.block message start).reverse).reverse := by
    rw [← latest_schedule, latest, List.reverse_reverse]
  rw [compress, values_add, Values.compress, Values.rounds, Values.constants, ← hwords,
    List.zip_map, ← values_foldl_round, ← round_inputs, List.foldl_map]

theorem values_foldl_compress (starts : List Nat) (s : Words) :
    (starts.foldl (fun s i => compress message s (64 * i)) s).values =
      starts.foldl (fun s i => Values.compress message s (64 * i)) s.values := by
  induction starts generalizing s with
  | nil => rfl
  | cons _ _ ih => rw [List.foldl_cons, ih, values_compress, List.foldl_cons]

theorem values_digest : (digest message).values = Values.digest message :=
  values_foldl_compress _ _ _

theorem toHex_values (s : Words) : s.values.toHex = s.toHex := by
  simp [Words.toHex, Values.toHex, Words.values]

theorem hexOfText_eq (s : String) :
    hexOfText s = String.ofList (Values.digest s.toUTF8).toHex := by
  rw [hexOfText, hex, ← values_digest, toHex_values]

example : hexOfText "abc" = "ba7816bf8f01cfea414140de5dae2223b00361a396177a9cb410ff61f20015ad" := by
  rw [hexOfText_eq]
  decide +kernel

end Culprit.Sha256
