import Mathlib

/-! The Rust the backup code is written against: the two error kinds of `crate::Error`,
the `FromStr` and `From` traits as `?` uses them, and `i64` with its decimal `Display` and
its `from_str`. The integer parser follows `from_str_radix` at radix ten; `literalValue` is
the integer a text denotes, which the parser reads whenever it fits. -/
namespace SealVault.Rust

/-- Modelled from the spec: the core has two kinds of failure, fatal and retriable, each
with the message the code formats. -/
inductive Error where
  | fatal (error : String)
  | retriable (error : String)
  deriving DecidableEq, Repr

/-- Rust's `FromStr`, with its associated error type. -/
class FromStr (α : Type) where
  Err : Type
  fromStr : String → Except Err α

/-- Rust's `From::from`, as `?` applies it to the error of a failed call. -/
class From (α β : Type) where
  convert : α → β

instance (α : Type) : From α α := ⟨id⟩

@[simp] theorem bind_eq_ok_iff {ε α β : Type} (x : Except ε α) (f : α → Except ε β) (b : β) :
    x >>= f = .ok b ↔ ∃ a, x = .ok a ∧ f a = .ok b := by
  cases x <;> simp [bind, Except.bind]

@[simp] theorem mapError_eq_ok_iff {ε ε' α : Type} (f : ε → ε') (x : Except ε α) (a : α) :
    x.mapError f = .ok a ↔ x = .ok a := by
  cases x <;> simp [Except.mapError]

theorem bind_eq_error_iff {ε α β : Type} (x : Except ε α) (f : α → Except ε β) (e : ε) :
    x >>= f = .error e ↔ x = .error e ∨ ∃ a, x = .ok a ∧ f a = .error e := by
  cases x <;> simp [bind, Except.bind]

theorem mapError_eq_error_iff {ε ε' α : Type} (f : ε → ε') (x : Except ε α) (e : ε') :
    x.mapError f = .error e ↔ ∃ e₀, x = .error e₀ ∧ e = f e₀ := by
  cases x <;> simp [Except.mapError, eq_comm]

theorem map_mapError_eq_ok_iff {ε ε' α β : Type} (f : α → β) (g : ε → ε') (x : Except ε α)
    (b : β) : (x.mapError g).map f = .ok b ↔ ∃ a, x = .ok a ∧ f a = b := by
  cases x <;> simp [Except.mapError, Except.map]

/-- Rust's `i64`. -/
structure I64 where
  val : Int
  le_val : -2 ^ 63 ≤ val
  val_lt : val < 2 ^ 63
  deriving DecidableEq

/-- `Display` for `i64`: decimal, with a leading `-` when negative. -/
instance : ToString I64 := ⟨fun x => toString x.val⟩

theorem I64.ext {x y : I64} (h : x.val = y.val) : x = y := by
  cases x; cases y; cases h; rfl

inductive IntErrorKind where
  | empty
  | invalidDigit
  | posOverflow
  | negOverflow
  deriving DecidableEq, Repr

structure ParseIntError where
  kind : IntErrorKind
  deriving DecidableEq, Repr

instance : ToString ParseIntError where
  toString e := match e.kind with
    | .empty => "cannot parse integer from empty string"
    | .invalidDigit => "invalid digit found in string"
    | .posOverflow => "number too large to fit in target type"
    | .negOverflow => "number too small to fit in target type"

/-- `char::to_digit(10)`. -/
def toDigit (c : Char) : Option Nat :=
  if c.isDigit then some (c.toNat - '0'.toNat) else none

/-- The digit loop of `from_str_radix`: a digit is checked before the overflow it causes.
`limit` is the largest magnitude the sign allows. -/
def accumulate (limit : Nat) (overflow : IntErrorKind) :
    {n // n ≤ limit} → List Char → Except ParseIntError {n // n ≤ limit}
  | acc, [] => .ok acc
  | acc, c :: cs =>
    match toDigit c with
    | none => .error ⟨.invalidDigit⟩
    | some d =>
      if h : acc.1 * 10 + d ≤ limit then accumulate limit overflow ⟨_, h⟩ cs
      else .error ⟨overflow⟩

/-- `i64::from_str`. A lone sign is an invalid digit; `+` and `-` are read only first. -/
def I64.fromStr (s : String) : Except ParseIntError I64 :=
  match s.data with
  | [] => .error ⟨.empty⟩
  | ['+'] | ['-'] => .error ⟨.invalidDigit⟩
  | '+' :: digits => positive digits
  | '-' :: digits => negative digits
  | digits => positive digits
where
  positive (digits : List Char) : Except ParseIntError I64 :=
    (accumulate (2 ^ 63 - 1) .posOverflow ⟨0, by omega⟩ digits).map fun n =>
      ⟨n.1, by omega, by have := n.2; omega⟩
  negative (digits : List Char) : Except ParseIntError I64 :=
    (accumulate (2 ^ 63) .negOverflow ⟨0, by omega⟩ digits).map fun n =>
      ⟨-n.1, by have := n.2; omega, by omega⟩

instance : FromStr I64 := ⟨ParseIntError, I64.fromStr⟩

/-! ### Decimal digits -/

/-- One step of reading a decimal numeral from the left. -/
def digitStep (acc : Nat) (c : Char) : Nat := acc * 10 + (c.toNat - '0'.toNat)

/-- The value of a numeral of ASCII digits. -/
def decimalValue (ds : List Char) : Nat := ds.foldl digitStep 0

theorem le_foldl_digitStep (acc : Nat) (ds : List Char) : acc ≤ ds.foldl digitStep acc := by
  induction ds generalizing acc with
  | nil => exact le_rfl
  | cons c cs ih => exact le_trans (by simp only [digitStep]; omega) (ih _)

theorem accumulate_eq_ok_iff {limit : Nat} {overflow : IntErrorKind} (acc : {n // n ≤ limit})
    (ds : List Char) (r : {n // n ≤ limit}) :
    accumulate limit overflow acc ds = .ok r ↔
      (∀ c ∈ ds, c.isDigit) ∧ ds.foldl digitStep acc.1 = r.1 := by
  induction ds generalizing acc with
  | nil => simp [accumulate, Subtype.ext_iff]
  | cons c cs ih =>
    by_cases hc : c.isDigit
    · have hs : accumulate limit overflow acc (c :: cs) =
          if h : digitStep acc.1 c ≤ limit then accumulate limit overflow ⟨_, h⟩ cs
          else .error ⟨overflow⟩ := by simp only [accumulate, toDigit, hc, if_true]; rfl
      rw [hs]
      split
      · rw [ih]; simp [hc]
      · next h =>
        refine iff_of_false (by simp) fun ⟨_, he⟩ => h ?_
        have := le_foldl_digitStep (digitStep acc.1 c) cs
        have := r.2
        simp only [List.foldl_cons] at he
        omega
    · simp [accumulate, toDigit, hc]

/-- The digit loop fails only on a non-digit or on the overflow of its sign. -/
theorem accumulate_error_kind {limit : Nat} {overflow : IntErrorKind} (acc : {n // n ≤ limit})
    (ds : List Char) (err : ParseIntError) (h : accumulate limit overflow acc ds = .error err) :
    err.kind = .invalidDigit ∨ err.kind = overflow := by
  induction ds generalizing acc with
  | nil => cases h
  | cons c cs ih =>
    simp only [accumulate] at h
    split at h
    · cases h; exact .inl rfl
    · split at h
      · exact ih _ h
      · cases h; exact .inr rfl

private theorem digitChar_lt_ten : ∀ d, d < 10 →
    (Nat.digitChar d).isDigit ∧ (Nat.digitChar d).toNat - '0'.toNat = d := by decide

/-- The numeral `Display` writes for `n`, with its value. -/
theorem toDigitsCore_ten (fuel n : Nat) (ds : List Char) (hn : n < fuel) :
    (∀ c ∈ Nat.toDigitsCore 10 fuel n ds, c.isDigit ∨ c ∈ ds) ∧
      (Nat.toDigitsCore 10 fuel n ds).foldl digitStep 0 = ds.foldl digitStep n ∧
      Nat.toDigitsCore 10 fuel n ds ≠ [] := by
  induction fuel generalizing n ds with
  | zero => omega
  | succ fuel ih =>
    obtain ⟨hd, hv⟩ := digitChar_lt_ten (n % 10) (Nat.mod_lt _ (by omega))
    have hstep : digitStep (n / 10) (Nat.digitChar (n % 10)) = n := by
      rw [digitStep, hv]; omega
    have head : ∀ c ∈ Nat.digitChar (n % 10) :: ds, c.isDigit ∨ c ∈ ds := fun c hc => by
      rcases List.mem_cons.1 hc with rfl | hc
      exacts [.inl hd, .inr hc]
    simp only [Nat.toDigitsCore]
    split
    · next h =>
      rw [h] at hstep
      exact ⟨head, by rw [List.foldl_cons, hstep], by simp⟩
    · obtain ⟨h₁, h₂, h₃⟩ := ih (n / 10) (Nat.digitChar (n % 10) :: ds) (by omega)
      refine ⟨fun c hc => ?_, by rw [h₂, List.foldl_cons, hstep], h₃⟩
      rcases h₁ c hc with h | h
      exacts [.inl h, head c h]

theorem toDigits_isDigit (n : Nat) : ∀ c ∈ Nat.toDigits 10 n, c.isDigit := fun c hc => by
  simpa using (toDigitsCore_ten (n + 1) n [] (by omega)).1 c hc

@[simp] theorem decimalValue_toDigits (n : Nat) : decimalValue (Nat.toDigits 10 n) = n :=
  (toDigitsCore_ten (n + 1) n [] (by omega)).2.1

theorem toDigits_ne_nil (n : Nat) : Nat.toDigits 10 n ≠ [] :=
  (toDigitsCore_ten (n + 1) n [] (by omega)).2.2

/-- Both signs of `from_str` read the digits with `accumulate`, then apply the sign. -/
theorem map_accumulate_eq_ok_iff {limit : Nat} {overflow : IntErrorKind} (h0 : 0 ≤ limit)
    (sign : Nat → Int) (f : {n // n ≤ limit} → I64) (hf : ∀ n, (f n).val = sign n.1)
    (hlimit : ∀ (m : Nat) (x : I64), sign m = x.val → m ≤ limit) (ds : List Char) (x : I64) :
    (accumulate limit overflow ⟨0, h0⟩ ds).map f = .ok x ↔
      (∀ c ∈ ds, c.isDigit) ∧ sign (decimalValue ds) = x.val := by
  cases h : accumulate limit overflow ⟨0, h0⟩ ds with
  | error e =>
    refine iff_of_false (by simp [Except.map]) fun ⟨hd, hx⟩ => ?_
    rw [(accumulate_eq_ok_iff ⟨0, h0⟩ ds ⟨_, hlimit _ x hx⟩).2 ⟨hd, rfl⟩] at h
    cases h
  | ok n =>
    obtain ⟨hd, hn⟩ := (accumulate_eq_ok_iff _ _ _).1 h
    rw [decimalValue, hn, ← hf]
    simp only [Except.map, Except.ok.injEq]
    exact ⟨by rintro rfl; exact ⟨hd, rfl⟩, fun ⟨_, hx⟩ => I64.ext hx⟩

theorem fromStr_positive_eq_ok_iff (ds : List Char) (v : I64) :
    I64.fromStr.positive ds = .ok v ↔ (∀ c ∈ ds, c.isDigit) ∧ (decimalValue ds : Int) = v.val :=
  map_accumulate_eq_ok_iff _ _ _ (fun _ => rfl) (fun _ x h => by have := x.val_lt; omega) ds v

theorem fromStr_negative_eq_ok_iff (ds : List Char) (v : I64) :
    I64.fromStr.negative ds = .ok v ↔ (∀ c ∈ ds, c.isDigit) ∧ -(decimalValue ds : Int) = v.val :=
  map_accumulate_eq_ok_iff _ (fun m => -(m : Int)) _ (fun _ => rfl)
    (fun _ x h => by dsimp only at h; have := x.le_val; omega) ds v

theorem fromStr_unsigned {c : Char} (hp : c ≠ '+') (hm : c ≠ '-') (cs : List Char) :
    I64.fromStr ⟨c :: cs⟩ = I64.fromStr.positive (c :: cs) := by
  unfold I64.fromStr
  split
  · next h => cases h
  · next h => cases h; exact absurd rfl hp
  · next h => cases h; exact absurd rfl hm
  · next h => cases h; exact absurd rfl hp
  · next h => cases h; exact absurd rfl hm
  · rfl

/-- `i64::from_str` on text that does not begin with a sign: it succeeds exactly on a
non-empty numeral of ASCII digits whose value fits. -/
theorem fromStr_eq_ok_iff {ds : List Char} (hsign : ∀ c ∈ ds.head?, c ≠ '+' ∧ c ≠ '-')
    (v : I64) :
    I64.fromStr ⟨ds⟩ = .ok v ↔
      ds ≠ [] ∧ (∀ c ∈ ds, c.isDigit) ∧ (decimalValue ds : Int) = v.val := by
  match ds, hsign with
  | [], _ => simp [I64.fromStr]
  | c :: cs, hsign =>
    obtain ⟨hp, hm⟩ := hsign c rfl
    simp [fromStr_unsigned hp hm, fromStr_positive_eq_ok_iff]

/-! ### The integer a text denotes -/

/-- The integer a text spells as an optionally signed numeral of ASCII digits, with no bound on
its size: what `i64::from_str` reads, before the range check. -/
def literalValue : List Char → Option Int
  | '+' :: ds => numeral ds
  | '-' :: ds => (numeral ds).map Neg.neg
  | ds => numeral ds
where
  numeral (ds : List Char) : Option Int :=
    if ds ≠ [] ∧ ∀ c ∈ ds, c.isDigit then some (decimalValue ds) else none

theorem numeral_cons_eq_some_iff (d : Char) (ds : List Char) (n : Int) :
    literalValue.numeral (d :: ds) = some n ↔
      (∀ c ∈ d :: ds, c.isDigit) ∧ (decimalValue (d :: ds) : Int) = n := by
  unfold literalValue.numeral
  split
  · next h => exact Option.some_inj.trans ⟨fun hn => ⟨h.2, hn⟩, fun h' => h'.2⟩
  · next h => exact iff_of_false Option.noConfusion fun ⟨h₂, _⟩ => h ⟨List.cons_ne_nil _ _, h₂⟩

theorem literalValue_unsigned {c : Char} (hp : c ≠ '+') (hm : c ≠ '-') (cs : List Char) :
    literalValue (c :: cs) = literalValue.numeral (c :: cs) := by
  unfold literalValue
  split
  · next h => cases h; exact absurd rfl hp
  · next h => cases h; exact absurd rfl hm
  · rfl

/-- `i64::from_str`, which checks for overflow at every digit, succeeds exactly on the texts
that denote an integer, and only when that integer is an `i64`. -/
theorem fromStr_eq_ok_iff_literalValue (s : String) (x : I64) :
    I64.fromStr s = .ok x ↔ literalValue s.data = some x.val := by
  obtain ⟨_ | ⟨c, cs⟩⟩ := s
  · exact iff_of_false nofun nofun
  by_cases hp : c = '+'
  · subst hp
    cases cs with
    | nil => exact iff_of_false nofun nofun
    | cons d ds =>
      show I64.fromStr.positive (d :: ds) = _ ↔ literalValue.numeral (d :: ds) = _
      rw [fromStr_positive_eq_ok_iff, numeral_cons_eq_some_iff]
  by_cases hm : c = '-'
  · subst hm
    cases cs with
    | nil => exact iff_of_false nofun nofun
    | cons d ds =>
      show I64.fromStr.negative (d :: ds) = _ ↔ (literalValue.numeral (d :: ds)).map Neg.neg = _
      rw [fromStr_negative_eq_ok_iff, Option.map_eq_some']
      constructor
      · rintro ⟨hd, hv⟩
        exact ⟨_, (numeral_cons_eq_some_iff _ _ _).2 ⟨hd, rfl⟩, hv⟩
      · rintro ⟨a, ha, hv⟩
        obtain ⟨hd, rfl⟩ := (numeral_cons_eq_some_iff _ _ _).1 ha
        exact ⟨hd, hv⟩
  rw [fromStr_unsigned hp hm, literalValue_unsigned hp hm, fromStr_positive_eq_ok_iff,
    numeral_cons_eq_some_iff]

/-- `i64::from_str` fails exactly on the texts that denote no integer, or one out of range. -/
theorem fromStr_error_iff_literalValue (s : String) :
    (∃ err, I64.fromStr s = .error err) ↔
      ∀ n, literalValue s.data = some n → n < -2 ^ 63 ∨ 2 ^ 63 ≤ n := by
  cases h : I64.fromStr s with
  | error e =>
    refine iff_of_true ⟨e, rfl⟩ fun n hn => ?_
    by_contra hr
    have := (fromStr_eq_ok_iff_literalValue s ⟨n, by omega, by omega⟩).2 hn
    rw [h] at this
    cases this
  | ok x =>
    refine iff_of_false (fun ⟨_, he⟩ => by cases he) fun hr => ?_
    have := hr _ ((fromStr_eq_ok_iff_literalValue s x).1 h)
    have := x.le_val
    have := x.val_lt
    omega

/-- On text with no sign, `i64::from_str` can only find a non-digit or a positive overflow. -/
theorem fromStr_unsigned_error_kind {c : Char} (hp : c ≠ '+') (hm : c ≠ '-') (cs : List Char)
    (err : ParseIntError) (h : I64.fromStr ⟨c :: cs⟩ = .error err) :
    err.kind = .invalidDigit ∨ err.kind = .posOverflow := by
  rw [fromStr_unsigned hp hm, I64.fromStr.positive] at h
  cases ha : accumulate (2 ^ 63 - 1) .posOverflow ⟨0, by omega⟩ (c :: cs) with
  | error e =>
    rw [ha] at h
    cases h
    exact accumulate_error_kind _ _ _ ha
  | ok n => rw [ha] at h; cases h

theorem toDigits_inj {m n : Nat} (h : Nat.toDigits 10 m = Nat.toDigits 10 n) : m = n := by
  rw [← decimalValue_toDigits m, h, decimalValue_toDigits]

/-- `Display` for integers: decimal digits, after a `-` when negative. -/
theorem toString_int_data (n : Int) :
    ∀ c ∈ (toString n).data, c.isDigit ∨ c = '-' := by
  cases n with
  | ofNat m => exact fun c hc => .inl (toDigits_isDigit m c hc)
  | negSucc m =>
    intro c hc
    rcases List.mem_cons.1 hc with rfl | hc
    exacts [.inr rfl, .inl (toDigits_isDigit _ c hc)]

theorem toString_int_ne_nil (n : Int) : (toString n).data ≠ [] := by
  cases n with
  | ofNat m => exact toDigits_ne_nil m
  | negSucc m => exact List.cons_ne_nil _ _

theorem toString_int_inj {m n : Int} (h : toString m = toString n) : m = n := by
  have hd := congrArg String.data h
  have head : ∀ k : Nat, (Nat.toDigits 10 k).head? ≠ some '-' := fun k he => by
    have := toDigits_isDigit k _ (List.mem_of_mem_head? he)
    simp at this
  cases m with
  | ofNat a =>
    cases n with
    | ofNat b => exact congrArg Int.ofNat (toDigits_inj hd)
    | negSucc b => exact absurd (congrArg List.head? hd) (head a)
  | negSucc a =>
    cases n with
    | ofNat b => exact absurd (congrArg List.head? hd).symm (head b)
    | negSucc b =>
      exact congrArg Int.negSucc (Nat.succ_injective (toDigits_inj (List.cons.inj hd).2))

theorem toString_data_of_nonneg {x : I64} (h : 0 ≤ x.val) :
    (toString x).data = Nat.toDigits 10 x.val.toNat := by
  obtain ⟨n, hn⟩ := Int.eq_ofNat_of_zero_le h
  show (toString x.val).data = _
  rw [hn]; rfl

theorem toString_data_of_neg {x : I64} (h : x.val < 0) :
    ∃ n, (toString x).data = '-' :: Nat.toDigits 10 n := by
  obtain ⟨n, hn⟩ := Int.exists_eq_neg_ofNat (Int.le_of_lt h)
  show ∃ _, (toString x.val).data = _
  cases n with
  | zero => omega
  | succ n => rw [hn]; exact ⟨n + 1, rfl⟩

/-- `Display` then `from_str` gives back a non-negative `i64`. -/
theorem fromStr_toString_of_nonneg {x : I64} (h : 0 ≤ x.val) :
    I64.fromStr (toString x) = .ok x := by
  have hd := toDigits_isDigit x.val.toNat
  have hne := toDigits_ne_nil x.val.toNat
  rw [show toString x = ⟨Nat.toDigits 10 x.val.toNat⟩ from String.ext (toString_data_of_nonneg h)]
  refine (fromStr_eq_ok_iff (fun c hc => ?_) x).2 ⟨hne, hd, by simp [Int.toNat_of_nonneg h]⟩
  have : c.isDigit := hd c (List.mem_of_mem_head? hc)
  constructor <;> rintro rfl <;> simp at this

end SealVault.Rust
