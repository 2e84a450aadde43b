import Mathlib

/-! The dev server's static handler. It serves the static folder, and for a desktop browser
uncomments the parts of an HTML page that are only for the desktop, by deleting the markers
`<!--desktop-only` and `desktop-only-->` with `str::replace`. `replace` is that scan; a page
made of marked blocks is served with exactly its markers removed
(`staticHandler_desktopPage`). -/
namespace SealVault.DevServer

/-! ### `str::replace` -/

/-- `str::replace`: the matches of `pat`, leftmost first and not overlapping, each replaced by
`rep`. An empty `pat` matches before every character and at the end. -/
def replace (pat rep : List Char) : List Char → List Char
  | [] => if pat = [] then rep else []
  | c :: cs =>
    if pat = [] then rep ++ c :: replace pat rep cs
    else if pat <+: c :: cs then rep ++ replace pat rep ((c :: cs).drop pat.length)
    else c :: replace pat rep cs
termination_by s => s.length
decreasing_by
  all_goals simp_wf
  have := List.length_pos_of_ne_nil ‹¬pat = []›
  omega

section
variable {pat rep : List Char}

theorem replace_nil (hpat : pat ≠ []) : replace pat rep [] = [] := by
  rw [replace, if_neg hpat]

theorem replace_cons_of_not_prefix (hpat : pat ≠ []) {c : Char} {cs : List Char}
    (h : ¬ pat <+: c :: cs) : replace pat rep (c :: cs) = c :: replace pat rep cs := by
  rw [replace, if_neg hpat, if_neg h]

/-- A match at the start is replaced, and the scan goes on after it. -/
theorem replace_prefix (hpat : pat ≠ []) (w : List Char) :
    replace pat rep (pat ++ w) = rep ++ replace pat rep w := by
  obtain ⟨c, cs, rfl⟩ := List.exists_cons_of_ne_nil hpat
  show replace _ _ (c :: (cs ++ w)) = _
  rw [replace, if_neg hpat, if_pos ⟨w, rfl⟩]
  show rep ++ replace _ _ ((c :: cs ++ w).drop (c :: cs).length) = _
  rw [List.drop_left]

/-- The scan passes over a stretch where no match starts. -/
theorem replace_append_of_clean (hpat : pat ≠ []) (u w : List Char)
    (h : ∀ k < u.length, ¬ pat <+: u.drop k ++ w) :
    replace pat rep (u ++ w) = u ++ replace pat rep w := by
  induction u with
  | nil => rfl
  | cons c u ih =>
    have h0 : ¬ pat <+: c :: (u ++ w) := h 0 (by simp)
    rw [List.cons_append, replace_cons_of_not_prefix hpat h0,
      ih fun k hk => h (k + 1) (by simp; omega), List.cons_append]

/-- A text in which the pattern does not occur is left as it is. -/
theorem replace_of_not_infix (hpat : pat ≠ []) {s : List Char} (h : ¬ pat <:+: s) :
    replace pat rep s = s := by
  have : replace pat rep (s ++ []) = s ++ replace pat rep [] :=
    replace_append_of_clean hpat s [] fun k _ hk =>
      h ((List.append_nil _ ▸ hk).isInfix.trans (List.drop_suffix k s).isInfix)
  rwa [List.append_nil, replace_nil hpat, List.append_nil] at this

/-- No proper suffix of the pattern begins it, so two of its matches never overlap. -/
def NoBorder (pat : List Char) : Prop := ∀ j < pat.length, 0 < j → ¬ pat.drop j <+: pat

instance : DecidablePred NoBorder := fun pat =>
  inferInstanceAs (Decidable (∀ j < pat.length, 0 < j → ¬ pat.drop j <+: pat))

/-- A borderless pattern that does not occur in `u` has no match starting in `u` and running
into a match right after it. -/
theorem not_prefix_drop_append (hb : NoBorder pat) {u : List Char} (hu : ¬ pat <:+: u)
    (w : List Char) {k : Nat} (hk : k < u.length) : ¬ pat <+: u.drop k ++ (pat ++ w) := by
  intro h
  have hv : u.drop k ≠ [] := by simp; omega
  by_cases hlen : pat.length ≤ (u.drop k).length
  · exact hu ((List.prefix_of_prefix_length_le h (List.prefix_append _ _) hlen).isInfix.trans
      (List.drop_suffix k u).isInfix)
  · obtain ⟨t, ht⟩ : u.drop k <+: pat :=
      List.prefix_of_prefix_length_le (List.prefix_append _ _) h (by omega)
    have hlt : t.length ≤ pat.length := by rw [← ht, List.length_append]; omega
    have h' : t <+: pat ++ w := by
      have h₂ : u.drop k ++ t <+: u.drop k ++ (pat ++ w) := by rw [ht]; exact h
      exact (List.prefix_append_right_inj _).1 h₂
    refine hb _ (by omega) (List.length_pos_of_ne_nil hv) ?_
    rw [show pat.drop (u.drop k).length = t by rw [← ht, List.drop_left]]
    exact List.prefix_of_prefix_length_le h' (List.prefix_append _ _) hlt

/-- A match after a stretch where the pattern does not occur: the stretch is kept, the match
replaced. -/
theorem replace_append_pat (hpat : pat ≠ []) (hb : NoBorder pat) {u : List Char}
    (hu : ¬ pat <:+: u) (w : List Char) :
    replace pat rep (u ++ (pat ++ w)) = u ++ (rep ++ replace pat rep w) := by
  rw [replace_append_of_clean hpat u _ fun k hk => not_prefix_drop_append hb hu w hk,
    replace_prefix hpat]

end

/-- Where an occurrence in `x ++ y` lies: inside `x`, inside `y`, or across the cut at `j`. -/
theorem infix_append_cases {a x y : List Char} (h : a <:+: x ++ y) :
    a <:+: x ∨ a <:+: y ∨ ∃ j < a.length, 0 < j ∧ a.take j <:+ x ∧ a.drop j <+: y := by
  obtain ⟨s, t, hst⟩ := h
  rw [List.append_assoc] at hst
  rcases List.append_eq_append_iff.1 hst with ⟨a', rfl, h'⟩ | ⟨c', rfl, rfl⟩
  · rcases List.append_eq_append_iff.1 h' with ⟨d, rfl, rfl⟩ | ⟨e, rfl, rfl⟩
    · exact .inl (List.infix_append' s a d)
    · rcases a' with _ | ⟨c, a'⟩
      · exact .inr (.inl (List.prefix_append e t).isInfix)
      · rcases e with _ | ⟨c₂, e⟩
        · rw [List.append_nil]
          exact .inl (List.suffix_append s _).isInfix
        · refine .inr (.inr ⟨(c :: a').length, by simp, Nat.succ_pos _, ?_, ?_⟩)
          · rw [List.take_left]
            exact List.suffix_append _ _
          · rw [List.drop_left]
            exact List.prefix_append _ _
  · exact .inr (.inl (List.infix_append' c' a t))

/-! ### The handler -/

/-- `http::HeaderMap`: its entries in order, the names in lower case. -/
abbrev HeaderMap := List (String × String)

/-- `HeaderValue::to_str`: the value, when every byte of it is visible ASCII or a tab. -/
def toStr (value : String) : Option String :=
  if value.data.all fun c => c = '\t' ∨ (32 ≤ c.toNat ∧ c.toNat < 127) then some value else none

/-- `str::to_lowercase`, on ASCII letters. The handler only asks whether the result contains
`html` or `iphone`, and no other character lowercases to text that contains either; a header
name is lowercased in ASCII. -/
def toLowercase (s : String) : String := ⟨s.data.map Char.toLower⟩

/-- `get_header_value`: the first value under the name, an empty one when there is none;
`expect` panics, here `none`, on a value that `to_str` refuses. -/
def getHeaderValue (headers : HeaderMap) (name : String) : Option String :=
  toStr ((headers.lookup (toLowercase name)).getD "")

/-- `str::contains` with a `&str` pattern. -/
def contains (s pat : String) : Bool := decide (pat.data <:+: s.data)

/-- A response of `get_static_file`, its body read as text. -/
structure Response where
  status : Nat
  headers : HeaderMap
  body : String

/-- `static_handler`, once `get_static_file` has answered `res`. An HTML file loses its
desktop-only markers, unless the user agent names an iPhone, and goes out as a new `200`
response of type `text/html`; any other file goes out as it came. `none` is a panic of one of
its `expect`s. -/
def staticHandler (headers : HeaderMap) (res : Response) : Option Response := do
  let contentType ← getHeaderValue res.headers "Content-Type"
  if contains (toLowercase contentType) "html" then
    let userAgent := toLowercase (← getHeaderValue headers "User-Agent")
    let mut bodyStr := res.body
    if !contains userAgent "iphone" then
      bodyStr := ⟨replace "<!--desktop-only".data [] bodyStr.data⟩
      bodyStr := ⟨replace "desktop-only-->".data [] bodyStr.data⟩
    pure ⟨200, [("content-type", "text/html")], bodyStr⟩
  else pure res

/-! ### Desktop-only blocks -/

/-- An HTML page of blocks, each a part for every browser and then a part for the desktop
only, commented out between the two markers, and a last part. -/
def desktopPage : List (String × String) → String → String
  | [], last => last
  | (shared, desktop) :: blocks, last =>
    shared ++ "<!--desktop-only" ++ desktop ++ "desktop-only-->" ++ desktopPage blocks last

/-- The page as a desktop browser should get it: the desktop parts uncommented. -/
def uncommentedPage : List (String × String) → String → String
  | [], last => last
  | (shared, desktop) :: blocks, last => shared ++ desktop ++ uncommentedPage blocks last

/-- The page between the two `replace`s: the opening markers gone. -/
def openedPage : List (String × String) → String → String
  | [], last => last
  | (shared, desktop) :: blocks, last =>
    shared ++ desktop ++ "desktop-only-->" ++ openedPage blocks last

theorem noBorder_open : NoBorder "<!--desktop-only".data := by decide

theorem noBorder_close : NoBorder "desktop-only-->".data := by decide

theorem infix_open : "desktop-only".data <:+: "<!--desktop-only".data := by decide

theorem infix_close : "desktop-only".data <:+: "desktop-only-->".data := by decide

/-- The only way the opening marker can run into the closing one: its `<!--` before the
closing marker's `desktop-only`. -/
theorem open_straddle_close :
    ∀ j < ("<!--desktop-only".data).length, 0 < j →
      ("<!--desktop-only".data).drop j <+: "desktop-only-->".data → j = 4 := by decide

theorem open_not_straddle_close :
    (¬ "<!--desktop-only".data <:+: "desktop-only-->".data) ∧
      ∀ j < ("<!--desktop-only".data).length, 0 < j →
        ¬ ("<!--desktop-only".data).take j <:+ "desktop-only-->".data := by decide

/-- After a desktop part that does not end in `<!--`, and its closing marker, no opening
marker starts before text that holds no `desktop-only`. -/
theorem not_open_infix_close {d x : List Char} (hd : ¬ "desktop-only".data <:+: d)
    (hend : ¬ "<!--".data <:+ d) (hx : ¬ "desktop-only".data <:+: x) :
    ¬ "<!--desktop-only".data <:+: d ++ ("desktop-only-->".data ++ x) := by
  intro h
  rcases infix_append_cases h with h | h | ⟨j, hj, hj0, hsuf, hpre⟩
  · exact hd (infix_open.trans h)
  · rcases infix_append_cases h with h | h | ⟨j, hj, hj0, hsuf, -⟩
    · exact open_not_straddle_close.1 h
    · exact hx (infix_open.trans h)
    · exact open_not_straddle_close.2 j hj hj0 hsuf
  · obtain rfl := open_straddle_close j hj hj0 <|
      List.prefix_of_prefix_length_le hpre (List.prefix_append _ _) (by simp; omega)
    exact hend hsuf

theorem data_desktopPage_cons (shared desktop : String) (blocks : List (String × String))
    (last : String) :
    (desktopPage ((shared, desktop) :: blocks) last).data =
      shared.data ++ ("<!--desktop-only".data ++ (desktop.data ++
        ("desktop-only-->".data ++ (desktopPage blocks last).data))) := by
  simp only [desktopPage, String.data_append, List.append_assoc]

theorem data_openedPage_cons (shared desktop : String) (blocks : List (String × String))
    (last : String) :
    (openedPage ((shared, desktop) :: blocks) last).data =
      (shared.data ++ desktop.data) ++ ("desktop-only-->".data ++ (openedPage blocks last).data) := by
  simp only [openedPage, String.data_append, List.append_assoc]

section
variable {blocks : List (String × String)} {last : String}
  (hblocks : ∀ b ∈ blocks,
    ¬ "desktop-only".data <:+: (b.1 ++ b.2).data ∧ ¬ "<!--".data <:+ b.2.data)
  (hlast : ¬ "desktop-only".data <:+: last.data)
include hblocks hlast

/-- The first `replace`, from any text before the page in which no opening marker can start:
it removes exactly the opening markers. -/
theorem replace_open_desktopPage (lead : List Char)
    (hlead : ∀ x, ¬ "desktop-only".data <:+: x → ¬ "<!--desktop-only".data <:+: lead ++ x) :
    replace "<!--desktop-only".data [] (lead ++ (desktopPage blocks last).data) =
      lead ++ (openedPage blocks last).data := by
  induction blocks generalizing lead with
  | nil => exact replace_of_not_infix (by decide) (hlead _ hlast)
  | cons b blocks ih =>
    obtain ⟨shared, desktop⟩ := b
    obtain ⟨hsd, hend⟩ := hblocks _ (List.mem_cons_self _ _)
    rw [String.data_append] at hsd
    have hs : ¬ "desktop-only".data <:+: shared.data :=
      fun h => hsd (h.trans (List.prefix_append _ _).isInfix)
    have hd : ¬ "desktop-only".data <:+: desktop.data :=
      fun h => hsd (h.trans (List.suffix_append _ _).isInfix)
    rw [data_desktopPage_cons, ← List.append_assoc lead,
      replace_append_pat (by decide) noBorder_open (hlead _ hs), List.nil_append,
      ← List.append_assoc desktop.data,
      ih (fun b hb => hblocks b (List.mem_cons_of_mem _ hb)) _
        fun x hx => List.append_assoc desktop.data _ x ▸ not_open_infix_close hd hend hx]
    simp only [openedPage, String.data_append, List.append_assoc]

/-- The second `replace` removes exactly the closing markers. -/
theorem replace_close_openedPage :
    replace "desktop-only-->".data [] (openedPage blocks last).data =
      (uncommentedPage blocks last).data := by
  induction blocks with
  | nil => exact replace_of_not_infix (by decide) fun h => hlast (infix_close.trans h)
  | cons b blocks ih =>
    obtain ⟨shared, desktop⟩ := b
    obtain ⟨hsd, -⟩ := hblocks _ (List.mem_cons_self _ _)
    rw [data_openedPage_cons, replace_append_pat (by decide) noBorder_close
      (fun h => hsd (String.data_append _ _ ▸ infix_close.trans h)), List.nil_append,
      ih fun b hb => hblocks b (List.mem_cons_of_mem _ hb)]
    simp only [uncommentedPage, String.data_append, List.append_assoc]

end

/-- For a desktop browser, `static_handler` serves an HTML page of desktop-only blocks with
exactly its markers removed, when no part holds `desktop-only` (a shared part together with
the desktop part after it included) and no desktop part ends in `<!--`. -/
theorem staticHandler_desktopPage (headers : HeaderMap) (res : Response)
    {contentType userAgent : String}
    (hct : getHeaderValue res.headers "Content-Type" = some contentType)
    (hhtml : contains (toLowercase contentType) "html" = true)
    (hua : getHeaderValue headers "User-Agent" = some userAgent)
    (hdesktop : contains (toLowercase userAgent) "iphone" = false)
    {blocks : List (String × String)} {last : String} (hbody : res.body = desktopPage blocks last)
    (hblocks : ∀ b ∈ blocks,
      ¬ "desktop-only".data <:+: (b.1 ++ b.2).data ∧ ¬ "<!--".data <:+ b.2.data)
    (hlast : ¬ "desktop-only".data <:+: last.data) :
    staticHandler headers res =
      some ⟨200, [("content-type", "text/html")], uncommentedPage blocks last⟩ := by
  have hopen := replace_open_desktopPage hblocks hlast [] fun x hx h => hx (infix_open.trans h)
  simp only [staticHandler, hct, hhtml, hua, hdesktop, hbody, Option.bind_eq_bind,
    Option.some_bind, if_true, Bool.not_false, List.nil_append] at hopen ⊢
  rw [hopen, replace_close_openedPage hblocks hlast]
  rfl

theorem staticHandler_desktopPage_sample :
    getHeaderValue [("content-type", "text/html; charset=utf-8")] "Content-Type" =
        some "text/html; charset=utf-8" ∧
      contains (toLowercase "text/html; charset=utf-8") "html" = true ∧
      getHeaderValue [("user-agent", "Mozilla/5.0 (X11; Linux x86_64)")] "User-Agent" =
        some "Mozilla/5.0 (X11; Linux x86_64)" ∧
      contains (toLowercase "Mozilla/5.0 (X11; Linux x86_64)") "iphone" = false ∧
      staticHandler [("user-agent", "Mozilla/5.0 (X11; Linux x86_64)")]
          ⟨200, [("content-type", "text/html; charset=utf-8")],
            desktopPage [("<p>all</p>", "<p>desktop</p>")] ""⟩ =
        some ⟨200, [("content-type", "text/html")],
          uncommentedPage [("<p>all</p>", "<p>desktop</p>")] ""⟩ :=
  ⟨by decide, by decide, by decide, by decide,
    @staticHandler_desktopPage _ _ "text/html; charset=utf-8" "Mozilla/5.0 (X11; Linux x86_64)"
      (by decide) (by decide) (by decide) (by decide) _ _ rfl (by decide) (by decide)⟩

end SealVault.DevServer
