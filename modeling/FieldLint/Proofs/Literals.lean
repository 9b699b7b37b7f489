import Mathlib.Data.List.Basic
import Mathlib.Data.List.Forall2
import FieldLint.Proofs.Extraction

/-!
# Docstring literals

A docstring may be written as one string or as several, side by side and in parentheses, with
comments in between. Its contents are those of the strings, one after the other:

* **Strings** — `SpellsString` says how a plain or raw string is put together from letters, a quote
  and its contents. Unquoting finds these contents (`SpellsString.unquote?_eq`), and finds none after
  any other letter (`unquote?_eq_none`).
* **Literals** — `IsLiteral` says which nodes are put together from strings only, and `strings` which
  strings these are. The contents of a literal are those of its strings, if each has some
  (`IsLiteral.literal?_eq`).
* **Bodies** — `docstringOf?_of_isLiteral`.
-/

namespace FieldLint

/-! ## Strings -/

/-- The letters that a plain or raw string may have before its quote. -/
def stringLetters : Text :=
  "rRuU".toList

theorem isStringLetter_iff {c : Char} : isStringLetter c = true ↔ c ∈ stringLetters := by
  simp [isStringLetter, stringLetters, or_assoc]

/-- The text is a plain or raw string with the given contents. -/
structure SpellsString (letters quote contents text : Text) : Prop where
  /-- letters, a quote, the contents and the same quote again make up the string -/
  eq_text : text = letters ++ (quote ++ (contents ++ quote))
  /-- the letters make it a plain or raw string -/
  letters_mem : ∀ c ∈ letters, c ∈ stringLetters
  /-- the quote is a quotation mark, or three times the same -/
  quote_mem : quote ∈ quotes
  /-- contents that open with a single quotation mark would end there -/
  head?_contents : quote.length = 1 → contents.head? ≠ quote.head?

theorem eq_of_mem_quotes {quote : Text} (h : quote ∈ quotes) :
    quote = "\"\"\"".toList ∨ quote = "'''".toList ∨ quote = "\"".toList ∨
      quote = "'".toList := by
  simpa only [quotes, List.mem_cons, List.not_mem_nil, or_false] using h

/-- What stands between two quotes is found there. -/
theorem between?_append (quote contents : Text) :
    between? quote (quote ++ (contents ++ quote)) = some contents := by
  have hsuffix : quote.isSuffixOf (contents ++ quote) = true :=
    List.isSuffixOf_iff_suffix.mpr (List.suffix_append contents quote)
  have hlength : (quote ++ (contents ++ quote)).length - 2 * quote.length = contents.length := by
    simp only [List.length_append]
    omega
  rw [between?, List.drop_left, hsuffix, hlength, List.take_left]
  simp

/-- Without the quote at its start a text is not quoted by it. -/
theorem between?_of_not_isPrefix {quote t : Text} (h : ¬quote <+: t) : between? quote t = none := by
  rw [between?, if_neg]
  simp [h]

/-- A quotation mark is not read as three of them if the contents do not open with it. -/
theorem not_isPrefix_single {mark : Char} {contents : Text} (h : contents.head? ≠ some mark) :
    ¬[mark, mark, mark] <+: mark :: (contents ++ [mark]) := by
  rcases contents with _ | ⟨c, contents⟩
  · simp
  · have hc : ¬mark = c := fun hmark => h (congrArg some hmark.symm)
    simp [List.cons_prefix_cons, hc]

/-- The first quote with which the text can be read decides. -/
theorem findSome?_between? (before : List Text) {after : List Text} {quote contents t : Text}
    (hbefore : ∀ q ∈ before, ¬q <+: t) (hquote : between? quote t = some contents) :
    (before ++ quote :: after).findSome? (between? · t) = some contents := by
  have hnone : before.findSome? (between? · t) = none :=
    List.findSome?_eq_none_iff.mpr fun q hq => between?_of_not_isPrefix (hbefore q hq)
  rw [List.findSome?_append, hnone, Option.none_or, List.findSome?_cons, hquote]

/-- **Unquoting finds the contents of a string**, whatever they hold. -/
theorem SpellsString.unquote?_eq {letters quote contents text : Text}
    (h : SpellsString letters quote contents text) : unquote? text = some contents := by
  obtain ⟨rfl, hletters, hquote, hhead⟩ := h
  have hskip : (letters ++ (quote ++ (contents ++ quote))).dropWhile isStringLetter =
      quote ++ (contents ++ quote) := by
    rw [List.dropWhile_append_of_pos fun c hc => isStringLetter_iff.mpr (hletters c hc)]
    rcases eq_of_mem_quotes hquote with rfl | rfl | rfl | rfl <;> rfl
  rw [unquote?, hskip]
  have hself := between?_append quote contents
  rcases eq_of_mem_quotes hquote with rfl | rfl | rfl | rfl
  · exact findSome?_between? [] (by simp) hself
  · refine findSome?_between? ["\"\"\"".toList] ?_ hself
    simp [List.cons_prefix_cons]
  · have hmarks := not_isPrefix_single (show contents.head? ≠ some '\x22' from hhead rfl)
    refine findSome?_between? ["\"\"\"".toList, "'''".toList] ?_ hself
    simpa [List.cons_prefix_cons] using hmarks
  · have hmarks := not_isPrefix_single (show contents.head? ≠ some '\x27' from hhead rfl)
    refine findSome?_between? ["\"\"\"".toList, "'''".toList, "\"".toList] ?_ hself
    simpa [List.cons_prefix_cons] using hmarks

/-- What stands before the first quotation mark of a string. -/
def beforeQuote (t : Text) : Text :=
  t.takeWhile fun c => c != '\x22' && c != '\x27'

/-- Skipping the letters of a string that has other letters ends before its quote. -/
theorem exists_dropWhile_isStringLetter {t : Text} (h : ∃ c ∈ beforeQuote t, c ∉ stringLetters) :
    ∃ c rest, t.dropWhile isStringLetter = c :: rest ∧ c ≠ '\x22' ∧ c ≠ '\x27' := by
  induction t with
  | nil =>
    obtain ⟨c, hc, -⟩ := h
    cases hc
  | cons x t ih =>
    obtain ⟨c, hc, hother⟩ := h
    rw [beforeQuote, List.takeWhile_cons] at hc
    split at hc
    · rename_i hmark
      by_cases hx : isStringLetter x = true
      · -- the other letter comes later
        have hne : c ≠ x := by
          rintro rfl
          exact hother (isStringLetter_iff.mp hx)
        rw [List.dropWhile_cons_of_pos hx]
        exact ih ⟨c, (List.mem_cons.mp hc).resolve_left hne, hother⟩
      · rw [List.dropWhile_cons_of_neg hx]
        exact ⟨x, t, rfl, by simpa using hmark⟩
    · cases hc

/-- **A string with any other letter has no contents.** -/
theorem unquote?_eq_none {t : Text} (h : ∃ c ∈ beforeQuote t, c ∉ stringLetters) :
    unquote? t = none := by
  obtain ⟨c, rest, hskip, hdouble, hsingle⟩ := exists_dropWhile_isStringLetter h
  rw [unquote?, hskip, List.findSome?_eq_none_iff]
  intro quote hquote
  refine between?_of_not_isPrefix ?_
  rcases eq_of_mem_quotes hquote with rfl | rfl | rfl | rfl <;>
    simp [List.cons_prefix_cons, Ne.symm hdouble, Ne.symm hsingle]

/-! ## Literals -/

namespace Tree

/-- The children that are named and no comments. -/
def parts (t : Tree) : List Tree :=
  t.children.filter isPart

/-- A string, a literal in parentheses, or literals side by side. -/
inductive IsLiteral : Tree → Prop
  | string {t : Tree} (hkind : t.kind = "string") : IsLiteral t
  | parenthesized {t inner : Tree} (hkind : t.kind = "parenthesized_expression")
      (hparts : t.parts = [inner]) (hinner : IsLiteral inner) : IsLiteral t
  | concatenated {t : Tree} (hkind : t.kind = "concatenated_string")
      (hparts : ∀ part ∈ t.parts, IsLiteral part) : IsLiteral t

mutual

/-- The strings a literal is put together from, from left to right. -/
def strings : Tree → List Tree
  | node i cs => if i.kind = "string" then [node i cs] else stringsOf cs

/-- The strings of all parts among some nodes. -/
def stringsOf : List Tree → List Tree
  | [] => []
  | t :: rest => if t.isPart then strings t ++ stringsOf rest else stringsOf rest

end

/-- The strings of several nodes are those of their parts, in order. -/
theorem stringsOf_eq_flatMap (cs : List Tree) :
    stringsOf cs = (cs.filter isPart).flatMap strings := by
  induction cs with
  | nil => rfl
  | cons t rest ih =>
    rw [stringsOf, List.filter_cons]
    split
    · rw [ih, List.flatMap_cons]
    · exact ih

/-- A string is made of itself. -/
theorem strings_of_kind_eq {t : Tree} (h : t.kind = "string") : t.strings = [t] := by
  obtain ⟨i, cs⟩ := t
  exact if_pos h

/-- Any other node is made of the strings of its parts. -/
theorem strings_of_kind_ne {t : Tree} (h : t.kind ≠ "string") :
    t.strings = t.parts.flatMap strings := by
  obtain ⟨i, cs⟩ := t
  rw [strings, if_neg (show i.kind ≠ "string" from h), stringsOf_eq_flatMap]
  rfl

variable {source : Text}

/-- The contents of several strings, one after the other; none if one of them has none. -/
def contents? (source : Text) (ss : List Tree) : Option Text :=
  (ss.mapM fun s => unquote? (s.text source)).map List.flatten

theorem contents?_singleton (s : Tree) : contents? source [s] = unquote? (s.text source) := by
  rcases h : unquote? (s.text source) with _ | piece <;> simp [contents?, h]

/-- Contents are joined from left to right. -/
theorem contents?_append (ss ss' : List Tree) :
    contents? source (ss ++ ss') =
      (contents? source ss).bind fun t => (contents? source ss').map (t ++ ·) := by
  rw [contents?, contents?, contents?, List.mapM_append]
  generalize (ss.mapM fun s => unquote? (s.text source)) = pieces
  generalize (ss'.mapM fun s => unquote? (s.text source)) = pieces'
  rcases pieces with _ | pieces <;> rcases pieces' with _ | pieces' <;> simp

/-- If each string has contents, they are joined. -/
theorem contents?_of_forall₂ {ss : List Tree} {pieces : List Text}
    (h : List.Forall₂ (fun s piece => unquote? (s.text source) = some piece) ss pieces) :
    contents? source ss = some pieces.flatten := by
  induction h with
  | nil => rfl
  | @cons s piece ss pieces hs _ ih =>
    rw [← List.singleton_append, contents?_append, contents?_singleton, hs, ih]
    rfl

/-- One string without contents is enough to have none. -/
theorem contents?_eq_none {ss : List Tree} (h : ∃ s ∈ ss, unquote? (s.text source) = none) :
    contents? source ss = none := by
  obtain ⟨s, hs, hnone⟩ := h
  obtain ⟨before, after, rfl⟩ := List.append_of_mem hs
  rw [← List.singleton_append, contents?_append, contents?_append, contents?_singleton, hnone]
  rcases contents? source before with _ | t <;> rfl

/-- Literals side by side have the contents of their strings if each of them has. -/
theorem joinedLiterals?_eq {cs : List Tree}
    (h : ∀ t ∈ cs.filter isPart, t.literal? source = contents? source t.strings) :
    joinedLiterals? source cs = contents? source (stringsOf cs) := by
  induction cs with
  | nil => rfl
  | cons t rest ih =>
    rw [joinedLiterals?, stringsOf]
    rw [List.filter_cons] at h
    by_cases ht : t.isPart = true
    · rw [if_pos ht, List.forall_mem_cons] at h
      rw [if_pos ht, if_pos ht, contents?_append, h.1, ih h.2]
      rcases contents? source t.strings with _ | piece
      · rfl
      · rcases contents? source (stringsOf rest) with _ | others <;> rfl
    · rw [if_neg ht] at h
      rw [if_neg ht, if_neg ht, ih h]

section Kinds

variable {t : Tree}

theorem literal?_of_string (h : t.kind = "string") :
    t.literal? source = unquote? (t.text source) := by
  obtain ⟨i, cs⟩ := t
  exact if_pos h

theorem literal?_of_parenthesized (h : t.kind = "parenthesized_expression") :
    t.literal? source = onlyLiteral? source t.children := by
  obtain ⟨i, cs⟩ := t
  rw [kind_node] at h
  simp [literal?, h]

theorem literal?_of_concatenated (h : t.kind = "concatenated_string") :
    t.literal? source = joinedLiterals? source t.children := by
  obtain ⟨i, cs⟩ := t
  rw [kind_node] at h
  simp [literal?, h]

end Kinds

/-- **The contents of a literal are those of its strings**, in any nesting and with comments
anywhere. -/
theorem IsLiteral.literal?_eq {t : Tree} (h : t.IsLiteral) :
    t.literal? source = contents? source t.strings := by
  induction h with
  | string hkind =>
    rw [literal?_of_string hkind, strings_of_kind_eq hkind, contents?_singleton]
  | parenthesized hkind hparts _ ih =>
    rw [literal?_of_parenthesized hkind, onlyLiteral?_eq, ← parts, hparts,
      strings_of_kind_ne (by simp [hkind]), hparts, List.flatMap_singleton]
    exact ih
  | concatenated hkind _ ih =>
    rw [literal?_of_concatenated hkind, joinedLiterals?_eq ih, stringsOf_eq_flatMap,
      strings_of_kind_ne (by simp [hkind]), parts]

/-! ## Bodies -/

/-- **Docstring literals are unquoted and joined.** The first statement of a body, comments aside,
is a literal put together from strings. If all of them are plain or raw strings, the docstring is
what is left of their contents, one after the other, once they are cleaned. If one has any other
letter before its quote, as a formatted string or bytes have, there is no docstring. -/
theorem docstringOf?_of_isLiteral (source : Text) (body : List Tree) {i : NodeInfo} {literal : Tree}
    (hbody : body.find? (!·.isComment) = some (node i [literal]))
    (hkind : i.kind = "expression_statement") (hliteral : literal.IsLiteral) :
    (∀ contents : List Text,
      List.Forall₂ (fun s c => ∃ letters quote, SpellsString letters quote c (s.text source))
        literal.strings contents →
      docstringOf? source body = cleanDocstring contents.flatten) ∧
    ((∃ s ∈ literal.strings, ∃ c ∈ beforeQuote (s.text source), c ∉ stringLetters) →
      docstringOf? source body = none) := by
  have hdocstring : docstringOf? source body =
      (contents? source literal.strings).bind cleanDocstring := by
    rw [docstringOf?_eq, hbody, Option.bind_some, docstringIn?, if_pos hkind, hliteral.literal?_eq]
  constructor
  · intro contents hcontents
    have hunquoted : contents? source literal.strings = some contents.flatten := by
      refine contents?_of_forall₂ (hcontents.imp ?_)
      rintro s c ⟨letters, quote, hs⟩
      exact hs.unquote?_eq
    rw [hdocstring, hunquoted, Option.bind_some]
  · rintro ⟨s, hs, hletter⟩
    rw [hdocstring, contents?_eq_none ⟨s, hs, unquote?_eq_none hletter⟩]
    rfl

/-- Two strings in two pairs of parentheses with a comment between them, once with a raw string and
once with a formatted one. -/
theorem docstringOf?_of_isLiteral_sum :
    let plain := "# s\n((\"Sum\" # all\n r''' of 'two'.'''))\n".toList
    let formatted := "# s\n((\"Sum\" # all\n f''' of 'two'.'''))\n".toList
    let leaf (kind : String) (isNamed : Bool) (start stop row : Nat) :=
      node ⟨kind, none, isNamed, start, stop, row⟩ []
    let first := leaf "string" true 6 11 1
    let second := leaf "string" true 19 36 2
    let both := node ⟨"concatenated_string", none, true, 6, 36, 1⟩
      [first, leaf "comment" true 12 17 1, second]
    let literal := node ⟨"parenthesized_expression", none, true, 4, 38, 1⟩
      [leaf "(" false 4 5 1,
        node ⟨"parenthesized_expression", none, true, 5, 37, 1⟩
          [leaf "(" false 5 6 1, both, leaf ")" false 36 37 2],
        leaf ")" false 37 38 2]
    let body := [leaf "comment" true 0 3 0,
      node ⟨"expression_statement", none, true, 4, 38, 1⟩ [literal]]
    literal.IsLiteral ∧ literal.strings = [first, second] ∧
      docstringOf? plain body = some "Sum of 'two'.".toList ∧ docstringOf? formatted body = none := by
  intro plain formatted leaf first second both literal body
  have hliteral : literal.IsLiteral := by
    refine .parenthesized rfl rfl (.parenthesized rfl rfl (.concatenated rfl ?_))
    intro part hpart
    have hparts : both.parts = [first, second] := rfl
    obtain rfl | rfl : part = first ∨ part = second := by simpa [hparts] using hpart
    · exact .string rfl
    · exact .string rfl
  have hstrings : literal.strings = [first, second] := rfl
  obtain ⟨hplain, -⟩ := docstringOf?_of_isLiteral plain body rfl rfl hliteral
  obtain ⟨-, hformatted⟩ := docstringOf?_of_isLiteral formatted body rfl rfl hliteral
  refine ⟨hliteral, hstrings, ?_,
    hformatted ⟨second, by simp [hstrings], 'f', by decide, by decide⟩⟩
  refine (hplain ["Sum".toList, " of 'two'.".toList] (.cons ?_ (.cons ?_ .nil))).trans (by decide)
  · exact ⟨[], "\"".toList, rfl, by simp, by decide, by decide⟩
  · exact ⟨"r".toList, "'''".toList, rfl, by simp [stringLetters], by decide, by decide⟩

end Tree

end FieldLint
