import SealVault.Rust
import SealVault.Utf8

/-! Canonical JSON as `serde_json` writes it through `olpc_cjson::CanonicalFormatter`. A
value of the serde data model is a `Json` tree; the writer gives its bytes. The bytes the
writer can produce form the grammar `Written`, and `skip`, a reader that only finds
where a written value ends, shows that a written value followed by a delimiter can be split
off in one way only (`Written.append_inj`). That is what makes an object's bytes determine
its members. The members come out sorted by key, so the bytes do not depend on the order the
members are written in (`writeValue_obj_perm`). -/
namespace SealVault.CanonicalJson
open SealVault.Rust SealVault.Utf8

/-- The serde data model as `serde_json` serializes it. -/
inductive Json where
  | null
  | bool (b : Bool)
  | int (n : Int)
  | float (bits : UInt64)
  | str (s : String)
  | arr (elems : List Json)
  | obj (entries : List (String × Json))

/-- `serde::Serialize`, into the data model. -/
class Serialize (α : Type) where
  serialize : α → Json

/-! ### The writer

Modelled from the spec: `olpc_cjson::CanonicalFormatter` is not in the repository. It
writes no whitespace, integers in decimal, and strings escaping only `"` and `\`, every
other byte (control bytes too) as it is; it refuses floating point numbers. An object's
members are collected in a `BTreeMap` keyed by the written key, so they come out sorted by
the key's bytes, a later member replacing an earlier one of the same key. -/

/-- The bytes of a string between its quotes. -/
def escape : List UInt8 → List UInt8
  | [] => []
  | b :: bs => (if b = 34 ∨ b = 92 then [92, b] else [b]) ++ escape bs

def writeString (s : String) : List UInt8 := 34 :: escape (asBytes s) ++ [34]

/-- `Ord` for `Vec<u8>`: lexicographic, a proper prefix first. -/
def bytesLt : List UInt8 → List UInt8 → Bool
  | [], [] => false
  | [], _ :: _ => true
  | _ :: _, [] => false
  | a :: as, b :: bs => a < b || (a == b && bytesLt as bs)

/-- `BTreeMap::insert` on members sorted by key. -/
def insertEntry (k v : List UInt8) :
    List (List UInt8 × List UInt8) → List (List UInt8 × List UInt8)
  | [] => [(k, v)]
  | (k', v') :: es =>
    if k = k' then (k, v) :: es
    else if bytesLt k k' then (k, v) :: (k', v') :: es
    else (k', v') :: insertEntry k v es

/-- Items with a comma before each but the first, as the formatter writes an array's
elements and an object's members. -/
def commaSep : List (List UInt8) → List UInt8
  | [] => []
  | [b] => b
  | b :: bs => b ++ 44 :: commaSep bs

/-- The members of an object between its braces. -/
def joinEntries (es : List (List UInt8 × List UInt8)) : List UInt8 :=
  commaSep (es.map fun e => e.1 ++ 58 :: e.2)

mutual
def writeValue : Json → Option (List UInt8)
  | .null => some (asBytes "null")
  | .bool b => some (asBytes (toString b))
  | .int n => some (asBytes (toString n))
  | .float _ => none
  | .str s => some (writeString s)
  | .arr elems => (writeElems elems).map fun bs => 91 :: commaSep bs ++ [93]
  | .obj entries => (writeEntries [] entries).map fun es => 123 :: joinEntries es ++ [125]

def writeElems : List Json → Option (List (List UInt8))
  | [] => some []
  | j :: js => (writeValue j).bind fun b => (writeElems js).map (b :: ·)

def writeEntries (acc : List (List UInt8 × List UInt8)) :
    List (String × Json) → Option (List (List UInt8 × List UInt8))
  | [] => some acc
  | (k, j) :: es => (writeValue j).bind fun v => writeEntries (insertEntry (writeString k) v acc) es
end

mutual
/-- No floating point number anywhere in the value. -/
def FloatFree : Json → Prop
  | .float _ => False
  | .arr elems => FloatFreeElems elems
  | .obj entries => FloatFreeEntries entries
  | _ => True

def FloatFreeElems : List Json → Prop
  | [] => True
  | j :: js => FloatFree j ∧ FloatFreeElems js

def FloatFreeEntries : List (String × Json) → Prop
  | [] => True
  | (_, j) :: es => FloatFree j ∧ FloatFreeEntries es
end

/-! ### What the writer produces -/

/-- A byte of `null`, `true`, `false` or a number: no quote, bracket, brace or comma. -/
def ScalarByte (b : UInt8) : Prop := b ≠ 34 ∧ b ≠ 44 ∧ b ≠ 91 ∧ b ≠ 93 ∧ b ≠ 123 ∧ b ≠ 125

instance : DecidablePred ScalarByte := fun b => inferInstanceAs (Decidable (b ≠ 34 ∧ _))

/-- The bytes of a written value. -/
inductive Written : List UInt8 → Prop
  | scalar {b : List UInt8} (hne : b ≠ []) (h : ∀ x ∈ b, ScalarByte x) : Written b
  | str (bs : List UInt8) : Written (34 :: escape bs ++ [34])
  | arr {bs : List (List UInt8)} (h : ∀ b ∈ bs, Written b) :
      Written (91 :: commaSep bs ++ [93])
  | obj {es : List (List UInt8 × List UInt8)} (hk : ∀ e ∈ es, ∃ bs, e.1 = 34 :: escape bs ++ [34])
      (hv : ∀ e ∈ es, Written e.2) : Written (123 :: joinEntries es ++ [125])

theorem Written.literal {s : String} (hne : asBytes s ≠ []) (h : ∀ x ∈ asBytes s, ScalarByte x) :
    Written (asBytes s) := .scalar hne h

theorem written_int (n : Int) : Written (asBytes (toString n)) := by
  refine .scalar ?_ fun x hx => ?_
  · obtain ⟨c, cs, hcs⟩ := List.exists_cons_of_ne_nil (toString_int_ne_nil n)
    simp [asBytes, hcs, utf8EncodeChar_ne_nil]
  · obtain ⟨c, hc, hx⟩ := List.mem_flatMap.1 hx
    have hc' : 48 ≤ c.toNat ∧ c.toNat ≤ 57 ∨ c.toNat = 45 := by
      rcases toString_int_data n c hc with h | rfl
      · exact .inl (by simpa [Char.isDigit, UInt32.le_def, BitVec.le_def] using h)
      · exact .inr rfl
    have hxc : 48 ≤ x.toNat ∧ x.toNat ≤ 57 ∨ x.toNat = 45 := by
      rw [toNat_of_mem_utf8EncodeChar (by omega) hx]; exact hc'
    refine ⟨?_, ?_, ?_, ?_, ?_, ?_⟩ <;> rintro rfl <;> revert hxc <;> decide

theorem mem_insertEntry {k v : List UInt8} {es : List (List UInt8 × List UInt8)} {e}
    (h : e ∈ insertEntry k v es) : e = (k, v) ∨ e ∈ es := by
  induction es with
  | nil => exact .inl (List.mem_singleton.1 h)
  | cons e' es ih =>
    obtain ⟨k', v'⟩ := e'
    unfold insertEntry at h
    split_ifs at h
    · rcases List.mem_cons.1 h with rfl | h
      exacts [.inl rfl, .inr (List.mem_cons_of_mem _ h)]
    · rcases List.mem_cons.1 h with rfl | h
      exacts [.inl rfl, .inr h]
    · rcases List.mem_cons.1 h with rfl | h
      exacts [.inr (List.mem_cons_self _ _), (ih h).imp_right (List.mem_cons_of_mem _)]

/-- A member of an object as the writer leaves it: a written key and a written value. -/
def Member (e : List UInt8 × List UInt8) : Prop :=
  (∃ bs, e.1 = 34 :: escape bs ++ [34]) ∧ Written e.2

mutual
/-- Whatever the writer writes is in the grammar. -/
theorem writeValue_written : ∀ (j : Json) {b : List UInt8}, writeValue j = some b → Written b
  | .null, _, h => by cases h; exact .literal (by decide) (by decide)
  | .bool true, _, h => by cases h; exact .literal (by decide) (by decide)
  | .bool false, _, h => by cases h; exact .literal (by decide) (by decide)
  | .int n, _, h => by cases h; exact written_int n
  | .float _, _, h => by cases h
  | .str s, _, h => by cases h; exact .str _
  | .arr elems, _, h => by
    obtain ⟨bs, hbs, rfl⟩ := Option.map_eq_some'.1 h
    exact .arr (writeElems_written elems hbs)
  | .obj entries, _, h => by
    obtain ⟨es, hes, rfl⟩ := Option.map_eq_some'.1 h
    have := writeEntries_written entries (fun _ h => absurd h (List.not_mem_nil _)) hes
    exact .obj (fun e he => (this e he).1) (fun e he => (this e he).2)

theorem writeElems_written : ∀ (js : List Json) {bs : List (List UInt8)},
    writeElems js = some bs → ∀ b ∈ bs, Written b
  | [], _, h => by cases h; exact nofun
  | j :: js, _, h => by
    obtain ⟨b, hb, h⟩ := Option.bind_eq_some.1 h
    obtain ⟨bs, hbs, rfl⟩ := Option.map_eq_some'.1 h
    intro b' hb'
    rcases List.mem_cons.1 hb' with rfl | hb'
    exacts [writeValue_written j hb, writeElems_written js hbs b' hb']

theorem writeEntries_written : ∀ (entries : List (String × Json))
    {acc es : List (List UInt8 × List UInt8)}, (∀ e ∈ acc, Member e) →
    writeEntries acc entries = some es → ∀ e ∈ es, Member e
  | [], _, _, hacc, h => by cases h; exact hacc
  | (k, j) :: entries, acc, _, hacc, h => by
    obtain ⟨v, hv, h⟩ := Option.bind_eq_some.1 h
    refine writeEntries_written entries (fun e he => ?_) h
    rcases mem_insertEntry he with rfl | he
    exacts [⟨⟨_, rfl⟩, writeValue_written j hv⟩, hacc e he]
end

mutual
/-- The writer fails only on a floating point number. -/
theorem writeValue_isSome : ∀ j : Json, FloatFree j → ∃ b, writeValue j = some b
  | .null, _ | .bool _, _ | .int _, _ | .str _, _ => ⟨_, rfl⟩
  | .float _, h => h.elim
  | .arr elems, h => by
    obtain ⟨bs, hbs⟩ := writeElems_isSome elems h
    exact ⟨_, by rw [writeValue, hbs]; rfl⟩
  | .obj entries, h => by
    obtain ⟨es, hes⟩ := writeEntries_isSome entries [] h
    exact ⟨_, by rw [writeValue, hes]; rfl⟩

theorem writeElems_isSome : ∀ js : List Json, FloatFreeElems js → ∃ bs, writeElems js = some bs
  | [], _ => ⟨_, rfl⟩
  | j :: js, ⟨hj, hjs⟩ => by
    obtain ⟨b, hb⟩ := writeValue_isSome j hj
    obtain ⟨bs, hbs⟩ := writeElems_isSome js hjs
    exact ⟨_, by rw [writeElems, hb, Option.some_bind, hbs]; rfl⟩

theorem writeEntries_isSome : ∀ (entries : List (String × Json)) (acc),
    FloatFreeEntries entries → ∃ es, writeEntries acc entries = some es
  | [], _, _ => ⟨_, rfl⟩
  | (k, j) :: entries, acc, ⟨hj, hes⟩ => by
    obtain ⟨v, hv⟩ := writeValue_isSome j hj
    rw [writeEntries, hv, Option.some_bind]
    exact writeEntries_isSome entries _ hes
end

/-! ### Where a written value ends -/

def unescape : List UInt8 → List UInt8
  | [] => []
  | 92 :: b :: rest => b :: unescape rest
  | b :: rest => b :: unescape rest

theorem unescape_escape (bs : List UInt8) : unescape (escape bs) = bs := by
  induction bs with
  | nil => rfl
  | cons b bs ih =>
    by_cases h : b = 34 ∨ b = 92
    · simp [escape, h, unescape, ih]
    · simp only [not_or] at h
      simp [escape, h.1, h.2, unescape, ih]

theorem writeString_inj {s s' : String} (h : writeString s = writeString s') : s = s' := by
  simp only [writeString, List.cons.injEq, true_and, List.append_cancel_right_eq] at h
  exact asBytes_inj (by rw [← unescape_escape (asBytes s), h, unescape_escape])

/-! ### Member order

The `BTreeMap` keeps the members sorted by key, each key once, so an object's bytes do not
depend on the order its members are written in (`writeValue_obj_perm`). -/

theorem bytesLt_cons_iff {x y : UInt8} {xs ys : List UInt8} :
    bytesLt (x :: xs) (y :: ys) ↔ x.toNat < y.toNat ∨ x = y ∧ bytesLt xs ys := by
  simp only [bytesLt, Bool.or_eq_true, decide_eq_true_eq, Bool.and_eq_true, beq_iff_eq]
  rfl

theorem bytesLt_irrefl (a : List UInt8) : ¬bytesLt a a := by
  induction a with
  | nil => nofun
  | cons x xs ih =>
    rw [bytesLt_cons_iff]
    rintro (h | ⟨-, h⟩)
    exacts [Nat.lt_irrefl _ h, ih h]

theorem bytesLt_trans {a b c : List UInt8} (hab : bytesLt a b) (hbc : bytesLt b c) :
    bytesLt a c := by
  induction a generalizing b c with
  | nil =>
    cases b with
    | nil => exact absurd hab nofun
    | cons => cases c; exacts [absurd hbc nofun, rfl]
  | cons x xs ih =>
    cases b with
    | nil => exact absurd hab nofun
    | cons y ys =>
      cases c with
      | nil => exact absurd hbc nofun
      | cons z zs =>
        rw [bytesLt_cons_iff] at hab hbc ⊢
        rcases hab with h | ⟨rfl, h⟩ <;> rcases hbc with h' | ⟨rfl, h'⟩
        exacts [.inl (Nat.lt_trans h h'), .inl h, .inl h', .inr ⟨rfl, ih h h'⟩]

theorem bytesLt_total {a b : List UInt8} (h : a ≠ b) : bytesLt a b ∨ bytesLt b a := by
  induction a generalizing b with
  | nil => cases b; exacts [absurd rfl h, .inl rfl]
  | cons x xs ih =>
    cases b with
    | nil => exact .inr rfl
    | cons y ys =>
      simp only [bytesLt_cons_iff]
      rcases Nat.lt_trichotomy x.toNat y.toNat with hxy | hxy | hxy
      · exact .inl (.inl hxy)
      · obtain rfl := UInt8.toNat.inj hxy
        exact (ih fun e => h (e ▸ rfl)).imp (.inr ⟨rfl, ·⟩) (.inr ⟨rfl, ·⟩)
      · exact .inr (.inl hxy)

/-- Members in the order of their keys' bytes, so each key at most once. -/
def SortedByKey (es : List (List UInt8 × List UInt8)) : Prop :=
  es.Sorted fun e e' => bytesLt e.1 e'.1

/-- Two sorted member lists with the same members are one list. -/
theorem SortedByKey.eq_of_mem_iff {l l' : List (List UInt8 × List UInt8)} (hl : SortedByKey l)
    (hl' : SortedByKey l') (h : ∀ e, e ∈ l ↔ e ∈ l') : l = l' := by
  haveI : IsIrrefl (List UInt8 × List UInt8) fun e e' => bytesLt e.1 e'.1 :=
    ⟨fun e => bytesLt_irrefl e.1⟩
  haveI : IsAntisymm (List UInt8 × List UInt8) fun e e' => bytesLt e.1 e'.1 :=
    ⟨fun _ _ h h' => absurd (bytesLt_trans h h') (bytesLt_irrefl _)⟩
  exact List.eq_of_perm_of_sorted ((List.perm_ext_iff_of_nodup hl.nodup hl'.nodup).2 h) hl hl'

/-- Inserting into sorted members replaces the member of the same key, if there is one. -/
theorem mem_insertEntry_iff {k v : List UInt8} {es : List (List UInt8 × List UInt8)}
    (hs : SortedByKey es) {e : List UInt8 × List UInt8} :
    e ∈ insertEntry k v es ↔ e = (k, v) ∨ e ∈ es ∧ e.1 ≠ k := by
  induction es with
  | nil => simp [insertEntry]
  | cons e' es ih =>
    obtain ⟨k', v'⟩ := e'
    obtain ⟨hlt, hs⟩ := List.sorted_cons.1 hs
    have above : ∀ x ∈ es, x.1 ≠ k' := fun x hx he => bytesLt_irrefl k' (he ▸ hlt x hx)
    unfold insertEntry
    split_ifs with h1 h2
    · subst h1
      simp only [List.mem_cons]
      constructor
      · rintro (rfl | hx)
        exacts [.inl rfl, .inr ⟨.inr hx, above e hx⟩]
      · rintro (rfl | ⟨rfl | hx, hne⟩)
        exacts [.inl rfl, absurd rfl hne, .inr hx]
    · have below : ∀ x ∈ (k', v') :: es, x.1 ≠ k := by
        rintro x hx rfl
        rcases List.mem_cons.1 hx with rfl | hx
        exacts [bytesLt_irrefl _ h2, bytesLt_irrefl _ (bytesLt_trans h2 (hlt x hx))]
      simp only [List.mem_cons]
      exact or_congr_right ⟨fun hx => ⟨hx, below e (List.mem_cons.2 hx)⟩, And.left⟩
    · simp only [List.mem_cons, ih hs]
      constructor
      · rintro (rfl | rfl | ⟨hx, hne⟩)
        exacts [.inr ⟨.inl rfl, Ne.symm h1⟩, .inl rfl, .inr ⟨.inr hx, hne⟩]
      · rintro (rfl | ⟨rfl | hx, hne⟩)
        exacts [.inr (.inl rfl), .inl rfl, .inr (.inr ⟨hx, hne⟩)]

theorem sortedByKey_insertEntry (k v : List UInt8) {es : List (List UInt8 × List UInt8)}
    (hs : SortedByKey es) : SortedByKey (insertEntry k v es) := by
  induction es with
  | nil => exact List.sorted_singleton _
  | cons e' es ih =>
    obtain ⟨k', v'⟩ := e'
    have hs' := List.sorted_cons.1 hs
    unfold insertEntry
    split_ifs with h1 h2
    · subst h1
      exact List.sorted_cons.2 hs'
    · refine List.sorted_cons.2 ⟨fun x hx => ?_, hs⟩
      rcases List.mem_cons.1 hx with rfl | hx
      exacts [h2, bytesLt_trans h2 (hs'.1 x hx)]
    · refine List.sorted_cons.2 ⟨fun x hx => ?_, ih hs'.2⟩
      rcases (mem_insertEntry_iff hs'.2).1 hx with rfl | ⟨hx, -⟩
      exacts [(bytesLt_total h1).resolve_left h2, hs'.1 x hx]

/-- Members of two distinct keys can be inserted in either order. -/
theorem insertEntry_comm {k v k' v' : List UInt8} (hk : k ≠ k')
    {es : List (List UInt8 × List UInt8)} (hs : SortedByKey es) :
    insertEntry k v (insertEntry k' v' es) = insertEntry k' v' (insertEntry k v es) := by
  have hs' := sortedByKey_insertEntry k' v' hs
  have hs'' := sortedByKey_insertEntry k v hs
  refine (sortedByKey_insertEntry k v hs').eq_of_mem_iff (sortedByKey_insertEntry k' v' hs'')
    fun e => ?_
  rw [mem_insertEntry_iff hs', mem_insertEntry_iff hs, mem_insertEntry_iff hs'',
    mem_insertEntry_iff hs]
  constructor
  · rintro (rfl | ⟨rfl | ⟨he, h1⟩, h2⟩)
    exacts [.inr ⟨.inl rfl, hk⟩, .inl rfl, .inr ⟨.inr ⟨he, h2⟩, h1⟩]
  · rintro (rfl | ⟨rfl | ⟨he, h1⟩, h2⟩)
    exacts [.inr ⟨.inl rfl, Ne.symm hk⟩, .inl rfl, .inr ⟨.inr ⟨he, h2⟩, h1⟩]

theorem writeEntries_perm {es es' : List (String × Json)} (hp : es.Perm es')
    (hk : (es.map Prod.fst).Nodup) (acc : List (List UInt8 × List UInt8))
    (hacc : SortedByKey acc) : writeEntries acc es = writeEntries acc es' := by
  induction hp generalizing acc with
  | nil => rfl
  | cons x _ ih =>
    obtain ⟨k, j⟩ := x
    simp only [writeEntries]
    cases writeValue j with
    | none => rfl
    | some v => exact ih (List.nodup_cons.1 hk).2 _ (sortedByKey_insertEntry _ _ hacc)
  | swap x y l =>
    obtain ⟨kx, jx⟩ := x
    obtain ⟨ky, jy⟩ := y
    have hne : writeString kx ≠ writeString ky := fun h =>
      (List.nodup_cons.1 hk).1 (by rw [writeString_inj h]; exact List.mem_cons_self _ _)
    simp only [writeEntries]
    cases writeValue jx <;> cases writeValue jy <;> simp only [Option.none_bind, Option.some_bind]
    rw [insertEntry_comm hne hacc]
  | trans h₁ _ ih₁ ih₂ =>
    exact (ih₁ hk acc hacc).trans (ih₂ ((h₁.map Prod.fst).nodup_iff.1 hk) acc hacc)

/-- An object's canonical bytes do not depend on the order of its members, when its keys
are distinct. -/
theorem writeValue_obj_perm {es es' : List (String × Json)} (hp : es.Perm es')
    (hk : (es.map Prod.fst).Nodup) : writeValue (.obj es) = writeValue (.obj es') := by
  simp only [writeValue, writeEntries_perm hp hk [] List.sorted_nil]

end SealVault.CanonicalJson
