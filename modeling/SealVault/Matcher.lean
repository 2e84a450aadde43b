import Mathlib

/-! The part of the `regex` crate that `BACKUP_FILE_NAME_REGEX` is written in: literal text,
the anchors `^` and `$`, a greedy `+` over a character class, and named groups.
`Regex::captures` is the leftmost-first match of a backtracking engine: the leftmost start
at which the pattern matches, and there the first match in priority order, where a longer
repetition comes before a shorter one. `\d` is Unicode-aware, as in the crate's default mode. -/
namespace SealVault.Matcher

/-- The code points of the zero digits of Unicode general category Nd. Each begins a run
of ten decimal digits; the mathematical digits at `U+1D7CE` are five such runs. -/
def decimalDigitZeros : List Nat :=
  [0x30, 0x660, 0x6F0, 0x7C0, 0x966, 0x9E6, 0xA66, 0xAE6, 0xB66, 0xBE6, 0xC66, 0xCE6,
    0xD66, 0xDE6, 0xE50, 0xED0, 0xF20, 0x1040, 0x1090, 0x17E0, 0x1810, 0x1946, 0x19D0,
    0x1A80, 0x1A90, 0x1B50, 0x1BB0, 0x1C40, 0x1C50, 0xA620, 0xA8D0, 0xA900, 0xA9D0,
    0xA9F0, 0xAA50, 0xABF0, 0xFF10, 0x104A0, 0x10D30, 0x11066, 0x110F0, 0x11136,
    0x111D0, 0x112F0, 0x11450, 0x114D0, 0x11650, 0x116C0, 0x11730, 0x118E0, 0x11950,
    0x11C50, 0x11D50, 0x11DA0, 0x11F50, 0x16A60, 0x16AC0, 0x16B50, 0x1D7CE, 0x1D7D8,
    0x1D7E2, 0x1D7EC, 0x1D7F6, 0x1E140, 0x1E2F0, 0x1E4F0, 0x1E950, 0x1FBF0]

/-- Unicode `\p{Nd}`, what `\d` matches. -/
def isDecimalDigit (c : Char) : Bool :=
  decimalDigitZeros.any fun z => z ≤ c.toNat && c.toNat < z + 10

theorem isDigit_iff (c : Char) : c.isDigit ↔ 48 ≤ c.toNat ∧ c.toNat ≤ 57 := by
  have : c.isDigit = (48 ≤ c.toNat && c.toNat ≤ 57) := by
    simp only [Char.isDigit, UInt32.le_def, BitVec.le_def, ge_iff_le]; rfl
  simp [this]

/-- Below `U+0080` the Unicode digits are the ASCII ones. -/
theorem isDecimalDigit_of_ascii {c : Char} (h : c.toNat < 0x80) :
    isDecimalDigit c = c.isDigit := by
  have far : ∀ z ∈ decimalDigitZeros.tail, 0x660 ≤ z := by decide
  have htail : decimalDigitZeros.tail.any (fun z => z ≤ c.toNat && c.toNat < z + 10) = false :=
    List.any_eq_false.2 fun z hz => by have := far z hz; simp only [Bool.and_eq_true,
      decide_eq_true_eq, not_and, not_lt]; omega
  have hsplit : isDecimalDigit c = ((0x30 ≤ c.toNat && c.toNat < 0x30 + 10) ||
      decimalDigitZeros.tail.any fun z => z ≤ c.toNat && c.toNat < z + 10) := rfl
  rw [hsplit, htail, Bool.or_false, Bool.eq_iff_iff, isDigit_iff]
  simp only [Bool.and_eq_true, decide_eq_true_eq]
  omega

inductive CharClass where
  /-- A bracket expression such as `[A-Za-z0-9-]`, as its ranges. -/
  | ranges (rs : List (Char × Char))
  /-- `\d`. -/
  | digit

def CharClass.matches : CharClass → Char → Bool
  | .ranges rs, c => rs.any fun r => decide (r.1 ≤ c ∧ c ≤ r.2)
  | .digit, c => isDecimalDigit c

inductive Regex where
  /-- `^` -/
  | startText
  /-- `$` -/
  | endText
  | lit (s : String)
  /-- `cls+`, greedy. -/
  | plus (cls : CharClass)
  /-- `(?P<name>r)` -/
  | group (name : String) (r : Regex)
  | seq (r₁ r₂ : Regex)

/-- The text each named group matched. -/
abbrev Captures := List (String × String)

/-- `Captures::name`. -/
def Captures.name (caps : Captures) (name : String) : Option String := caps.lookup name

/-- The repetition after the first character of `cls+`: the longest run is offered to the
continuation first, then each shorter one. -/
def CharClass.star {α : Type} (cls : CharClass) (k : Nat → List Char → Option α) :
    Nat → List Char → Option α
  | pos, [] => k pos []
  | pos, c :: cs => (if cls.matches c then cls.star k (pos + 1) cs else none) <|> k pos (c :: cs)

/-- The backtracking engine in continuation-passing style: `r.go caps pos cs k` matches `r`
at position `pos` with `cs` the text left, and hands on to `k`, which may reject and so
make the engine try the next alternative. -/
def Regex.go {α : Type} :
    Regex → Captures → Nat → List Char → (Captures → Nat → List Char → Option α) → Option α
  | .startText, caps, pos, cs, k => if pos = 0 then k caps pos cs else none
  | .endText, caps, pos, cs, k => if cs = [] then k caps pos cs else none
  | .lit s, caps, pos, cs, k =>
    if s.data.isPrefixOf cs then k caps (pos + s.length) (cs.drop s.length) else none
  | .plus cls, caps, pos, cs, k =>
    match cs with
    | c :: cs' => if cls.matches c then cls.star (k caps) (pos + 1) cs' else none
    | [] => none
  | .group name r, caps, pos, cs, k =>
    r.go caps pos cs fun caps' pos' rest => k ((name, ⟨cs.take (pos' - pos)⟩) :: caps') pos' rest
  | .seq r₁ r₂, caps, pos, cs, k =>
    r₁.go caps pos cs fun caps' pos' rest => r₂.go caps' pos' rest k

/-- The leftmost start at which `re` matches, from `pos` on. -/
def Regex.capturesAt (re : Regex) : Nat → List Char → Option Captures
  | pos, cs =>
    re.go [] pos cs (fun caps _ _ => some caps) <|>
      match cs with
      | [] => none
      | _ :: rest => re.capturesAt (pos + 1) rest

/-- `Regex::captures`. -/
def Regex.captures (re : Regex) (haystack : String) : Option Captures :=
  re.capturesAt 0 haystack.data

/-- A field of a pattern: one or more characters of its class. -/
def Field (cls : CharClass) (u : List Char) : Prop := u ≠ [] ∧ ∀ c ∈ u, cls.matches c

instance (cls : CharClass) : DecidablePred (Field cls) :=
  fun u => inferInstanceAs (Decidable (u ≠ [] ∧ _))

/-! ### One lemma per construct -/

section
variable {α : Type}

/-- A continuation that cannot start with a character of `cls` makes the repetition
possessive: only the longest run is ever handed on. -/
theorem star_eq_of_rejects {cls : CharClass} {k : Nat → List Char → Option α}
    (hk : ∀ pos c cs, cls.matches c → k pos (c :: cs) = none) (pos : Nat) (cs : List Char) :
    cls.star k pos cs =
      k (pos + (cs.takeWhile cls.matches).length) (cs.dropWhile cls.matches) := by
  induction cs generalizing pos with
  | nil => simp [CharClass.star]
  | cons c cs ih =>
    by_cases hc : cls.matches c
    · simp [CharClass.star, hc, ih, hk pos c cs hc, Nat.add_assoc, Nat.add_comm 1]
    · simp [CharClass.star, hc]

theorem go_group_plus {cls : CharClass} {k : Captures → Nat → List Char → Option α}
    (hk : ∀ caps pos c cs, cls.matches c → k caps pos (c :: cs) = none)
    (name : String) (caps : Captures) (pos : Nat) (cs : List Char) :
    (Regex.group name (.plus cls)).go caps pos cs k =
      if cs.takeWhile cls.matches = [] then none
      else k ((name, ⟨cs.takeWhile cls.matches⟩) :: caps)
        (pos + (cs.takeWhile cls.matches).length) (cs.dropWhile cls.matches) := by
  cases cs with
  | nil => simp [Regex.go]
  | cons c cs =>
    by_cases hc : cls.matches c
    · have htake : cs.take (cs.takeWhile cls.matches).length = cs.takeWhile cls.matches := by
        have h := List.take_left (cs.takeWhile cls.matches) (cs.dropWhile cls.matches)
        rwa [List.takeWhile_append_dropWhile] at h
      simp only [Regex.go, hc, if_true]
      rw [star_eq_of_rejects (fun pos c cs h => hk _ pos c cs h)]
      simp only [List.takeWhile_cons, hc, List.dropWhile_cons, if_true, List.length_cons,
        reduceCtorEq, if_false, Nat.add_assoc, Nat.add_sub_cancel_left, List.take_succ_cons,
        htake, Nat.add_comm 1]
    · simp [Regex.go, hc]

/-- A named group of `cls+` followed by a literal that `cls` cannot begin: the group takes
the run before the literal, and the text must split there. -/
theorem go_field_eq_some_iff {cls : CharClass} {sep : String} {c₀ : Char} {rest : Regex}
    (hsep : sep.data.head? = some c₀) (hc₀ : cls.matches c₀ = false)
    (name : String) (caps : Captures) (pos : Nat) (cs : List Char)
    (k : Captures → Nat → List Char → Option α) (x : α) :
    (Regex.seq (.group name (.plus cls)) (.seq (.lit sep) rest)).go caps pos cs k = some x ↔
      ∃ u r, Field cls u ∧ cs = u ++ sep.data ++ r ∧
        rest.go ((name, ⟨u⟩) :: caps) (pos + u.length + sep.length) r k = some x := by
  obtain ⟨tail, htail⟩ : ∃ tail, sep.data = c₀ :: tail := by
    cases h : sep.data <;> simp_all
  have stop : ∀ r, (sep.data ++ r).takeWhile cls.matches = [] ∧
      (sep.data ++ r).dropWhile cls.matches = sep.data ++ r := by
    simp [htail, hc₀]
  have hk : ∀ caps pos c cs, cls.matches c →
      (Regex.seq (.lit sep) rest).go caps pos (c :: cs) k = none := by
    intro caps pos c cs hc
    have : c ≠ c₀ := by rintro rfl; simp_all
    simp [Regex.go, htail, this.symm]
  have hlen : sep.length = sep.data.length := rfl
  show (Regex.group name (.plus cls)).go caps pos cs
    (fun caps' pos' r => (Regex.seq (.lit sep) rest).go caps' pos' r k) = some x ↔ _
  rw [go_group_plus hk, hlen]
  constructor
  · intro h
    split at h
    · cases h
    · next hne =>
      simp only [Regex.go, hlen] at h
      split at h
      · next hpre =>
        obtain ⟨r, hr⟩ := List.isPrefixOf_iff_prefix.1 hpre
        rw [← hr, List.drop_left] at h
        refine ⟨_, r, ⟨hne, fun c hc => List.mem_takeWhile_imp hc⟩, ?_, ?_⟩
        · rw [List.append_assoc, hr, List.takeWhile_append_dropWhile]
        · simpa only [Nat.add_assoc] using h
      · cases h
  · rintro ⟨u, r, ⟨hu, hcls⟩, rfl, hgo⟩
    have htw : (u ++ sep.data ++ r).takeWhile cls.matches = u := by
      rw [List.append_assoc, List.takeWhile_append_of_pos hcls, (stop r).1, List.append_nil]
    have hdw : (u ++ sep.data ++ r).dropWhile cls.matches = sep.data ++ r := by
      rw [List.append_assoc, List.dropWhile_append_of_pos hcls, (stop r).2]
    simp only [htw, hu, if_false, hdw, Regex.go, List.prefix_append, List.isPrefixOf_iff_prefix,
      if_true, hlen, List.drop_left]
    simpa only [Nat.add_assoc, hlen] using hgo

/-- A pattern that begins with `^` matches only at the start of the text. -/
theorem capturesAt_startText (r : Regex) (cs : List Char) :
    ∀ pos, 0 < pos → (Regex.seq .startText r).capturesAt pos cs = none := by
  induction cs with
  | nil => intro pos h; simp [Regex.capturesAt, Regex.go, Nat.pos_iff_ne_zero.1 h]
  | cons c cs ih =>
    intro pos h
    simp [Regex.capturesAt, Regex.go, Nat.pos_iff_ne_zero.1 h, ih (pos + 1) (by omega)]

theorem captures_startText (r : Regex) (s : String) :
    (Regex.seq .startText r).captures s = r.go [] 0 s.data fun caps _ _ => some caps := by
  rw [Regex.captures]
  cases s.data with
  | nil => simp [Regex.capturesAt, Regex.go]
  | cons c cs => simp [Regex.capturesAt, Regex.go, capturesAt_startText r cs 1 (by omega)]

theorem go_seq_lit_eq_some_iff (s : String) (r : Regex) (caps : Captures) (pos : Nat)
    (cs : List Char) (k : Captures → Nat → List Char → Option α) (x : α) :
    (Regex.seq (.lit s) r).go caps pos cs k = some x ↔
      ∃ rest, cs = s.data ++ rest ∧ r.go caps (pos + s.length) rest k = some x := by
  show (if s.data.isPrefixOf cs then r.go caps (pos + s.length) (cs.drop s.length) k
    else none) = some x ↔ _
  split
  · next h =>
    obtain ⟨rest, rfl⟩ := List.isPrefixOf_iff_prefix.1 h
    rw [List.drop_left' (show s.data.length = s.length from rfl)]
    simp
  · next h =>
    refine iff_of_false (by simp) fun ⟨rest, hcs, _⟩ => h ?_
    simp [hcs, List.isPrefixOf_iff_prefix]

theorem go_endText_eq_some_iff (caps : Captures) (pos : Nat) (cs : List Char)
    (k : Captures → Nat → List Char → Option α) (x : α) :
    Regex.endText.go caps pos cs k = some x ↔ cs = [] ∧ k caps pos [] = some x := by
  simp only [Regex.go]
  split <;> simp_all

end

end SealVault.Matcher
