/-
# Dagq.Domain.Search -- reading a search query, and writing one.

A query is words, phrases in quotes, FTS5's operators and parentheses.  What it asks the index is an FTS5
expression with every term in quotes, and that expression is itself a query that reads the same.  The
plan review writes one of its own, of the words of a task's title.  Texts are lists of characters.
-/
import Dagq.Domain.Values
import Dagq.Lib.Lexer
import Mathlib.Data.List.TakeWhile
import Mathlib.Tactic.SplitIfs

namespace Dagq.Search

open Lib

/-- The characters a term needs to be looked up in the trigram index. -/
def trigram : Nat := 3

/-! ## Tokens -/

inductive Operator
  | openParen | closeParen | and | or | not
  deriving DecidableEq

def Operator.text : Operator → List Char
  | .openParen => ['(']
  | .closeParen => [')']
  | .and => ['A', 'N', 'D']
  | .or => ['O', 'R']
  | .not => ['N', 'O', 'T']

inductive Token
  | term (text : List Char)
  | operator (op : Operator)
  deriving DecidableEq

def isQuote (c : Char) : Bool := c = '\x22'

/-- White space, a parenthesis or a quote. -/
def endsWord (c : Char) : Bool := isWhitespace c || c = '(' || c = ')' || isQuote c

/-- A word that is an operator's is the operator. -/
def wordToken (word : List Char) : Token :=
  if word = Operator.and.text then .operator .and
  else if word = Operator.or.text then .operator .or
  else if word = Operator.not.text then .operator .not
  else .term word

/-- One round of the loop of `tokens`. -/
def nextToken (c : Char) (text : List Char) : Option Token × List Char :=
  if isWhitespace c then (none, text)
  else if c = '(' then (some (.operator .openParen), text)
  else if c = ')' then (some (.operator .closeParen), text)
  else if isQuote c then
    let phrase := text.takeWhile (!isQuote ·)
    -- The closing quote goes with the phrase; without one the phrase is all that is left.
    (if phrase.all isWhitespace then none else some (.term phrase),
      (text.dropWhile (!isQuote ·)).drop 1)
  else (some (wordToken (c :: text.takeWhile (!endsWord ·))), text.dropWhile (!endsWord ·))

theorem nextToken_length_le (c : Char) (text : List Char) :
    (nextToken c text).2.length ≤ text.length := by
  have hdrop (p : Char → Bool) : (text.dropWhile p).length ≤ text.length :=
    (List.dropWhile_sublist p).length_le
  unfold nextToken
  split_ifs
  · exact Nat.le_refl _
  · exact Nat.le_refl _
  · exact Nat.le_refl _
  · show ((text.dropWhile (!isQuote ·)).drop 1).length ≤ text.length
    rw [List.length_drop]
    exact Nat.le_trans (Nat.sub_le _ _) (hdrop _)
  · exact hdrop _

def lexer : Lexer Char Token where
  next := nextToken
  next_length_le := nextToken_length_le

def tokens (query : List Char) : List Token := lexer.tokens query

/-! ## Terms -/

/-- An FTS5 expression of the terms the index can look up, these terms, and the shorter ones. -/
structure SearchTerms where
  fts : Option (List Char)
  long : List (List Char)
  short : List (List Char)
  deriving DecidableEq

def isShort (term : List Char) : Bool := term.length < trigram

def Token.term? : Token → Option (List Char)
  | .term text => some text
  | .operator _ => none

/-- An operator a short term cannot be combined with. -/
def Token.combines : Token → Bool
  | .term _ => false
  | .operator op => op ≠ .and

def quote (term : List Char) : List Char := '\x22' :: (term ++ ['\x22'])

def Token.write : Token → List Char
  | .term text => quote text
  | .operator op => op.text

/-- A long term in quotes; only AND can stand beside a short term, which juxtaposition means. -/
def Token.longPart : Token → Option (List Char)
  | .term text => if isShort text then none else some (quote text)
  | .operator _ => none

/-- `parts.join(" ")`. -/
def joined (parts : List (List Char)) : List Char := [' '].intercalate parts

/-- The terms among tokens. -/
def terms (ts : List Token) : List (List Char) := ts.filterMap Token.term?

/-- What tokens ask for; the error is the reason of a `SearchQuery` error. -/
def ofTokens (ts : List Token) : Except String SearchTerms :=
  let short := (terms ts).filter isShort
  let long := (terms ts).filter (!isShort ·)
  if short.isEmpty && long.isEmpty then .error "the query has no term"
  else if !short.isEmpty && ts.any Token.combines then
    .error ("terms shorter than 3 characters (" ++ ", ".intercalate (short.map String.ofList)
      ++ ") cannot be combined with OR, NOT or parentheses")
  else
    let parts := if short.isEmpty then ts.map Token.write else ts.filterMap Token.longPart
    .ok { fts := if parts.isEmpty then none else some (joined parts), long, short }

/-- Reads a query. -/
def parseTerms (query : List Char) : Except String SearchTerms := ofTokens (tokens query)

/-! ## A query of any word of a text -/

/-- The most words of a text a query asks the index for. -/
def maxQueryWords : Nat := 20

/-- The letters and digits of Unicode.  Its tables are the standard library's; what they say of ASCII,
and that no white space is among them, holds of every version of the tables. -/
structure Unicode where
  isAlphanumeric : Char → Bool
  isAlphanumeric_ascii : ∀ c : Char, c.toNat < 128 → isAlphanumeric c = c.isAlphanum
  not_whitespace : ∀ c, isAlphanumeric c = true → isWhitespace c = false

def Unicode.isWordChar (U : Unicode) (c : Char) : Bool :=
  U.isAlphanumeric c || ['_', '-', '.', '/'].contains c

def trimMatches (p : Char → Bool) (word : List Char) : List Char :=
  ((word.dropWhile p).reverse.dropWhile p).reverse

def trimWord (word : List Char) : List Char := trimMatches (['.', '-', '/'].contains ·) word

/-- ASCII letters are the same in both cases, and nothing else is. -/
def eqIgnoreAsciiCase (a b : List Char) : Bool := a.map Char.toLower = b.map Char.toLower

/-- The words chosen among the pieces of a text, after those chosen so far. -/
def chooseWords (words : List (List Char)) : List (List Char) → List (List Char)
  | [] => words
  | piece :: pieces =>
      let word := trimWord piece
      if isShort word || words.any (eqIgnoreAsciiCase · word) then chooseWords words pieces
      else if words.length + 1 = maxQueryWords then words ++ [word]
      else chooseWords (words ++ [word]) pieces

/-- The words a query of `text` asks for. -/
def Unicode.queryWords (U : Unicode) (text : List Char) : List (List Char) :=
  chooseWords [] (text.splitOnP (!U.isWordChar ·))

/-- A query for documents holding any word of `text`, if it has one. -/
def Unicode.anyWordQuery (U : Unicode) (text : List Char) : Option (List Char) :=
  let words := U.queryWords text
  if words.isEmpty then none else some ([' ', 'O', 'R', ' '].intercalate (words.map quote))

/-! ## What is written reads the same -/

variable {c : Char} {word text rest : List Char} {t : Token} {ts : List Token}

/-- A term as a quoted phrase can hold it. -/
def Token.Quotable : Token → Prop
  | .term text => (∀ c ∈ text, isQuote c = false) ∧ text.all isWhitespace = false
  | .operator _ => True

/-- A phrase is all that stands before the next quote. -/
theorem tokens_quote (hquote : ∀ c ∈ word, isQuote c = false) (hblank : word.all isWhitespace = false) :
    tokens (quote word ++ rest) = .term word :: tokens rest := by
  have hnot : ∀ c ∈ word, (!isQuote c) = true := fun c hc => by rw [hquote c hc]; rfl
  have hclose : (word ++ '\x22' :: rest).takeWhile (!isQuote ·) = word := by
    rw [List.takeWhile_append_of_pos hnot]
    exact List.append_nil word
  have hleft : (word ++ '\x22' :: rest).dropWhile (!isQuote ·) = '\x22' :: rest := by
    rw [List.dropWhile_append_of_pos hnot]
    rfl
  have hnext : lexer.next '\x22' (word ++ '\x22' :: rest) = (some (.term word), rest) := by
    show nextToken '\x22' (word ++ '\x22' :: rest) = _
    rw [nextToken, if_neg (by decide), if_neg (by decide), if_neg (by decide), if_pos (by decide)]
    show (if ((word ++ '\x22' :: rest).takeWhile (!isQuote ·)).all isWhitespace then none
        else some (Token.term ((word ++ '\x22' :: rest).takeWhile (!isQuote ·))),
      ((word ++ '\x22' :: rest).dropWhile (!isQuote ·)).drop 1) = _
    rw [hclose, hleft, hblank]
    rfl
  rw [quote, List.cons_append, List.append_assoc]
  exact Lexer.tokens_of_next lexer hnext

/-- An operator's word ends with the text or before a space. -/
theorem tokens_word (hword : wordToken (c :: word) = t) (hc : endsWord c = false)
    (hends : word.any endsWord = false) (hrest : Lexer.Ends [' '] rest) :
    tokens (c :: (word ++ rest)) = t :: tokens rest := by
  have hnot : ∀ c ∈ word, (!endsWord c) = true := fun c hc =>
    (Bool.not_eq_true' _).mpr (Bool.eq_false_iff.mpr (List.any_eq_false.mp hends c hc))
  have hstop : rest.takeWhile (!endsWord ·) = [] ∧ rest.dropWhile (!endsWord ·) = rest := by
    rcases hrest with rfl | ⟨text, rfl⟩
    · exact ⟨rfl, rfl⟩
    · exact ⟨rfl, rfl⟩
  simp only [endsWord, Bool.or_eq_false_iff] at hc
  obtain ⟨⟨⟨hwhite, hopen⟩, hclose⟩, hquote⟩ := hc
  have hnext : lexer.next c (word ++ rest) = (some t, rest) := by
    show nextToken c (word ++ rest) = _
    rw [nextToken, hwhite, if_neg Bool.false_ne_true, if_neg (of_decide_eq_false hopen),
      if_neg (of_decide_eq_false hclose), hquote, if_neg Bool.false_ne_true,
      List.takeWhile_append_of_pos hnot, List.dropWhile_append_of_pos hnot, hstop.1, hstop.2,
      List.append_nil, hword]
  exact Lexer.tokens_of_next lexer hnext

theorem tokens_operator (op : Operator) (hrest : Lexer.Ends [' '] rest) :
    tokens (op.text ++ rest) = .operator op :: tokens rest := by
  cases op with
  | openParen => exact Lexer.tokens_of_next lexer rfl
  | closeParen => exact Lexer.tokens_of_next lexer rfl
  | and =>
      show tokens ('A' :: (['N', 'D'] ++ rest)) = _
      exact tokens_word rfl rfl rfl hrest
  | or =>
      show tokens ('O' :: (['R'] ++ rest)) = _
      exact tokens_word rfl rfl rfl hrest
  | not =>
      show tokens ('N' :: (['O', 'T'] ++ rest)) = _
      exact tokens_word rfl rfl rfl hrest

/-- Tokens written with spaces between them are read back. -/
theorem tokens_joined (h : ∀ t ∈ ts, t.Quotable) : tokens (joined (ts.map Token.write)) = ts := by
  refine Lexer.tokens_intercalate (fun rest => ?_) fun t ht rest hrest => ?_
  · exact Lexer.tokens_of_skip lexer rfl
  · cases t with
    | term text => exact tokens_quote (h _ ht).1 (h _ ht).2
    | operator op => exact tokens_operator op hrest

theorem quotable_wordToken (hquote : ∀ c ∈ word, isQuote c = false)
    (hblank : word.all isWhitespace = false) : (wordToken word).Quotable := by
  unfold wordToken
  split_ifs
  · trivial
  · trivial
  · trivial
  · exact ⟨hquote, hblank⟩

/-- Every term read from a query can be quoted. -/
theorem quotable_of_tokens (query : List Char) : ∀ t ∈ tokens query, t.Quotable := by
  refine Lexer.forall_tokens fun c text t ht => ?_
  have hnext : t ∈ (nextToken c text).1 := ht
  unfold nextToken at hnext
  split_ifs at hnext with hwhite hopen hclose hquote
  · exact absurd hnext (Option.not_mem_none t)
  · obtain rfl := Option.some.inj hnext
    trivial
  · obtain rfl := Option.some.inj hnext
    trivial
  · replace hnext : t ∈ if (text.takeWhile (!isQuote ·)).all isWhitespace then none
      else some (Token.term (text.takeWhile (!isQuote ·))) := hnext
    split_ifs at hnext with hblank
    · exact absurd hnext (Option.not_mem_none t)
    · obtain rfl := Option.some.inj hnext
      refine ⟨fun c hc => ?_, Bool.eq_false_iff.mpr hblank⟩
      have hnot : (!isQuote c) = true := List.mem_takeWhile_imp (p := (!isQuote ·)) hc
      exact (Bool.not_eq_true' _).mp hnot
  · obtain rfl := Option.some.inj hnext
    refine quotable_wordToken (List.forall_mem_cons.mpr ⟨Bool.eq_false_iff.mpr hquote, fun c hc => ?_⟩) ?_
    · have hnot : (!endsWord c) = true := List.mem_takeWhile_imp (p := (!endsWord ·)) hc
      exact (Bool.or_eq_false_iff.mp ((Bool.not_eq_true' _).mp hnot)).2
    · rw [List.all_cons, Bool.eq_false_iff.mpr hwhite, Bool.false_and]

/-- What tokens with long terms only ask for. -/
theorem ofTokens_long (hsome : terms ts ≠ []) (hlong : ∀ term ∈ terms ts, isShort term = false) :
    ofTokens ts = .ok { fts := some (joined (ts.map Token.write)), long := terms ts, short := [] } := by
  have hshort : (terms ts).filter isShort = [] :=
    List.filter_eq_nil_iff.mpr fun term hterm => Bool.eq_false_iff.mp (hlong term hterm)
  have hall : (terms ts).filter (!isShort ·) = terms ts :=
    List.filter_eq_self.mpr fun term hterm => by rw [hlong term hterm]; rfl
  have hparts : ts ≠ [] := by
    rintro rfl
    exact hsome rfl
  simp [ofTokens, hshort, hall, hsome, hparts]

theorem short_of_ofTokens {found : SearchTerms} (h : ofTokens ts = .ok found) :
    found.short = (terms ts).filter isShort := by
  simp only [ofTokens] at h
  split_ifs at h
  all_goals
    obtain rfl := Except.ok.inj h
    rfl

theorem terms_ne_nil_of_ofTokens {found : SearchTerms} (h : ofTokens ts = .ok found) :
    terms ts ≠ [] := by
  intro hterms
  rw [ofTokens, hterms] at h
  cases h

/-- The expression of a query without short terms is a query that reads as the first one did. -/
theorem parseTerms_again {query : List Char} {found : SearchTerms} (h : parseTerms query = .ok found)
    (hshort : found.short = []) : ∃ fts, found.fts = some fts ∧ parseTerms fts = .ok found := by
  have hlong : ∀ term ∈ terms (tokens query), isShort term = false := fun term hterm =>
    Bool.eq_false_iff.mpr (List.filter_eq_nil_iff.mp ((short_of_ofTokens h).symm.trans hshort) term hterm)
  have hfound := ofTokens_long (terms_ne_nil_of_ofTokens h) hlong
  obtain rfl := Except.ok.inj (h.symm.trans hfound)
  refine ⟨_, rfl, ?_⟩
  rw [parseTerms, tokens_joined (quotable_of_tokens query)]
  exact hfound

/-! ## The plan review's query reads back -/

variable {U : Unicode} {words pieces : List (List Char)} {a b : List Char}

theorem joined_intersperse (sep : Token) (ts : List Token) :
    joined ((ts.intersperse sep).map Token.write) =
      (' ' :: (sep.write ++ [' '])).intercalate (ts.map Token.write) := by
  induction ts with
  | nil => rfl
  | cons t ts ih =>
      cases ts with
      | nil => rfl
      | cons t' ts =>
          have hne : ((t' :: ts).intersperse sep).map Token.write ≠ [] := by
            cases ts <;> exact List.cons_ne_nil _ _
          rw [List.intersperse_cons_cons, joined, List.map_cons, List.map_cons, List.intercalate_cons_cons,
            List.intercalate_cons_of_ne_nil hne]
          show t.write ++ [' '] ++ (sep.write ++ [' '] ++
            joined (((t' :: ts).intersperse sep).map Token.write)) = _
          rw [ih, List.map_cons, List.map_cons, List.map_cons, List.intercalate_cons_cons]
          simp only [List.append_assoc, List.cons_append, List.nil_append]

/-- A word of a query: no short term, and of word characters only. -/
structure IsQueryWord (U : Unicode) (word : List Char) : Prop where
  long : isShort word = false
  chars : ∀ c ∈ word, U.isWordChar c = true

theorem mem_trimMatches {p : Char → Bool} (h : c ∈ trimMatches p word) : c ∈ word := by
  have hfront := (List.dropWhile_sublist p).mem (List.mem_reverse.mp h)
  exact (List.dropWhile_sublist p).mem (List.mem_reverse.mp hfront)

/-- A chosen word is a long piece, and none chosen before it is the same but for the case. -/
theorem chooseWords_spec
    (hpieces : ∀ piece ∈ pieces, ∀ c ∈ piece, U.isWordChar c = true)
    (hwords : ∀ word ∈ words, IsQueryWord U word)
    (hdistinct : words.Pairwise fun a b => eqIgnoreAsciiCase a b = false) :
    (∀ word ∈ chooseWords words pieces, IsQueryWord U word) ∧
      (chooseWords words pieces).Pairwise fun a b => eqIgnoreAsciiCase a b = false := by
  induction pieces generalizing words with
  | nil => exact ⟨hwords, hdistinct⟩
  | cons piece pieces ih =>
      obtain ⟨hpiece, hpieces⟩ := List.forall_mem_cons.mp hpieces
      simp only [chooseWords]
      split_ifs with hskip hfull
      · exact ih hpieces hwords hdistinct
      all_goals
        obtain ⟨hlong, hnew⟩ := Bool.or_eq_false_iff.mp (Bool.eq_false_iff.mpr hskip)
        have hword : IsQueryWord U (trimWord piece) := ⟨hlong, fun c hc => hpiece c (mem_trimMatches hc)⟩
        have hwords' : ∀ word ∈ words ++ [trimWord piece], IsQueryWord U word :=
          List.forall_mem_append.mpr ⟨hwords, List.forall_mem_singleton.mpr hword⟩
        have hdistinct' : (words ++ [trimWord piece]).Pairwise fun a b => eqIgnoreAsciiCase a b = false := by
          refine List.pairwise_append.mpr ⟨hdistinct, List.pairwise_singleton _ _, fun a ha b hb => ?_⟩
          rw [List.mem_singleton.mp hb]
          exact Bool.eq_false_iff.mpr fun hsame => List.any_eq_false.mp hnew a ha hsame
      · exact ⟨hwords', hdistinct'⟩
      · exact ih hpieces hwords' hdistinct'

theorem of_mem_splitOnP {p : Char → Bool} {piece : List Char} (h : piece ∈ text.splitOnP p) :
    ∀ c ∈ piece, p c = false := by
  induction text generalizing piece with
  | nil =>
      obtain rfl := List.mem_singleton.mp h
      exact fun _ hc => absurd hc List.not_mem_nil
  | cons a text ih =>
      rw [List.splitOnP_cons_eq_if_modifyHead] at h
      split_ifs at h with ha
      · rcases List.mem_cons.mp h with rfl | h
        · exact fun _ hc => absurd hc List.not_mem_nil
        · exact ih h
      · obtain ⟨first, others, hsplit⟩ := List.exists_cons_of_ne_nil (List.splitOnP_ne_nil p text)
        rw [hsplit, List.modifyHead_cons] at h
        rcases List.mem_cons.mp h with rfl | h
        · exact List.forall_mem_cons.mpr
            ⟨Bool.eq_false_iff.mpr ha, ih (hsplit ▸ List.mem_cons_self)⟩
        · exact ih (hsplit ▸ List.mem_cons_of_mem _ h)

theorem queryWords_spec (U : Unicode) (text : List Char) :
    (∀ word ∈ U.queryWords text, IsQueryWord U word) ∧
      (U.queryWords text).Pairwise fun a b => eqIgnoreAsciiCase a b = false := by
  refine chooseWords_spec (fun piece hpiece c hc => ?_) (fun _ hword => absurd hword List.not_mem_nil) .nil
  have hnot := of_mem_splitOnP (p := (!U.isWordChar ·)) hpiece c hc
  exact (Bool.not_eq_false' _).mp hnot

/-- No word character ends a phrase, or is white space. -/
theorem Unicode.isWordChar_spec (h : U.isWordChar c = true) :
    isQuote c = false ∧ isWhitespace c = false := by
  rcases Bool.or_eq_true_iff.mp h with halpha | hmark
  · refine ⟨Bool.eq_false_iff.mpr fun hquote => ?_, U.not_whitespace c halpha⟩
    obtain rfl : c = '\x22' := of_decide_eq_true hquote
    rw [U.isAlphanumeric_ascii _ (by decide)] at halpha
    exact absurd halpha (by decide)
  · have hmarks : (['_', '-', '.', '/'].any fun c => isQuote c || isWhitespace c) = false := by decide
    have hnone := List.any_eq_false.mp hmarks c (List.contains_iff_mem.mp hmark)
    exact Bool.or_eq_false_iff.mp (Bool.eq_false_iff.mpr hnone)

theorem IsQueryWord.quotable (h : IsQueryWord U word) : (Token.term word).Quotable := by
  refine ⟨fun c hc => (Unicode.isWordChar_spec (h.chars c hc)).1, ?_⟩
  cases word with
  | nil => exact absurd h.long (by decide)
  | cons c word =>
      rw [List.all_cons, (Unicode.isWordChar_spec (h.chars c List.mem_cons_self)).2, Bool.false_and]

/-- The tokens of a query of some words. -/
def orTokens (words : List (List Char)) : List Token :=
  (words.map Token.term).intersperse (.operator .or)

theorem terms_intersperse (op : Operator) (words : List (List Char)) :
    terms ((words.map Token.term).intersperse (.operator op)) = words := by
  induction words with
  | nil => rfl
  | cons word words ih =>
      cases words with
      | nil => rfl
      | cons word' words => exact congrArg (word :: ·) ih

theorem forall_intersperse {p : Token → Prop} (hop : p t) (h : ∀ t ∈ ts, p t) :
    ∀ t' ∈ ts.intersperse t, p t' := by
  induction ts with
  | nil => exact fun _ ht => absurd ht List.not_mem_nil
  | cons a ts ih =>
      obtain ⟨ha, hts⟩ := List.forall_mem_cons.mp h
      cases ts with
      | nil => exact List.forall_mem_singleton.mpr ha
      | cons b ts =>
          rw [List.intersperse_cons_cons]
          exact List.forall_mem_cons.mpr ⟨ha, List.forall_mem_cons.mpr ⟨hop, ih hts⟩⟩

theorem quotable_orTokens (h : ∀ word ∈ words, IsQueryWord U word) : ∀ t ∈ orTokens words, t.Quotable := by
  refine forall_intersperse trivial fun t ht => ?_
  obtain ⟨word, hword, rfl⟩ := List.mem_map.mp ht
  exact (h word hword).quotable

theorem joined_orTokens (words : List (List Char)) :
    joined ((orTokens words).map Token.write) = [' ', 'O', 'R', ' '].intercalate (words.map quote) := by
  rw [orTokens, joined_intersperse, List.map_map]
  rfl

/-- The query written of a text is read as what it was written of: its words, each once, in order. -/
theorem any_word_query_reads_back (U : Unicode) (text query : List Char)
    (h : U.anyWordQuery text = some query) :
    parseTerms query = .ok { fts := some query, long := U.queryWords text, short := [] } ∧
      (U.queryWords text).Pairwise fun a b => eqIgnoreAsciiCase a b = false := by
  obtain ⟨hwords, hdistinct⟩ := queryWords_spec U text
  simp only [Unicode.anyWordQuery] at h
  split_ifs at h with hnone
  obtain rfl := Option.some.inj h
  have hterms : terms (orTokens (U.queryWords text)) = U.queryWords text := terms_intersperse .or _
  refine ⟨?_, hdistinct⟩
  rw [← joined_orTokens, parseTerms, tokens_joined (quotable_orTokens hwords), ofTokens_long, hterms]
  · rw [hterms]
    exact fun hnil => hnone (List.isEmpty_iff.mpr hnil)
  · rw [hterms]
    exact fun word hword => (hwords word hword).long

/-- The ASCII letters and digits, and the kana. -/
def Unicode.asciiAndKana : Unicode where
  isAlphanumeric c := c.isAlphanum || (0x3041 ≤ c.toNat && c.toNat ≤ 0x3096)
    || (0x30A1 ≤ c.toNat && c.toNat ≤ 0x30FA)
  isAlphanumeric_ascii c hc := by
    have hhiragana : ¬0x3041 ≤ c.toNat := by omega
    have hkatakana : ¬0x30A1 ≤ c.toNat := by omega
    simp [hhiragana, hkatakana]
  not_whitespace c hc := by
    replace hc : (((decide (65 ≤ c.val ∧ c.val ≤ 90) || (97 ≤ c.val && c.val ≤ 122)) ||
      (48 ≤ c.val && c.val ≤ 57)) || (0x3041 ≤ c.toNat && c.toNat ≤ 0x3096) ||
        (0x30A1 ≤ c.toNat && c.toNat ≤ 0x30FA)) = true := hc
    simp only [Bool.or_eq_true, Bool.and_eq_true, decide_eq_true_eq, UInt32.le_iff_toNat_le] at hc
    have hc' : (48 ≤ c.toNat ∧ c.toNat ≤ 122) ∨ (0x3041 ≤ c.toNat ∧ c.toNat ≤ 0x30FA) := by
      have hval : c.val.toNat = c.toNat := rfl
      grind
    simp only [isWhitespace, Bool.or_eq_false_iff, Bool.and_eq_false_iff, decide_eq_false_iff_not]
    omega

theorem any_word_query_reads_back_title :
    parseTerms "\x22Fix\x22 OR \x22src/a.rs\x22 OR \x22テスト\x22".toList =
      .ok { fts := some "\x22Fix\x22 OR \x22src/a.rs\x22 OR \x22テスト\x22".toList,
            long := Unicode.asciiAndKana.queryWords "Fix (src/a.rs): fix テスト OR".toList, short := [] } ∧
      (Unicode.asciiAndKana.queryWords "Fix (src/a.rs): fix テスト OR".toList).Pairwise
        fun a b => eqIgnoreAsciiCase a b = false :=
  any_word_query_reads_back Unicode.asciiAndKana "Fix (src/a.rs): fix テスト OR".toList _ (by decide +kernel)

end Dagq.Search
