/-
# Dagq.Lib.SqlText -- how SQLite divides a text into tokens, and tokens into statements.

The lexical rules alone: string literals and quoted names with their doubled quotes, line and block
comments, words, and single characters for the rest (of a number or a parameter its letters and digits
are a word).  Tokens keep their text, so the tokens of a text put together are the text.  A statement
ends at a semicolon, except that a trigger ends at the semicolon behind an `END` that stands alone
between two of them.
-/
import Dagq.Lib.Lexer
import Mathlib

namespace Dagq.Lib.Sql

/-! ## Tokens -/

inductive Lexeme
  | space (text : List Char)
  /-- `--` to the end of the line. -/
  | comment (text : List Char)
  /-- `/*` to `*/`, or to the end of the text. -/
  | block (text : List Char)
  /-- A keyword, a name or a number. -/
  | word (text : List Char)
  /-- The opening mark, and the text with its closing mark. -/
  | quoted (mark : Char) (text : List Char)
  /-- A quotation that does not end. -/
  | unclosed (text : List Char)
  | semi
  | symbol (c : Char)
  deriving DecidableEq

/-- The text of a token. -/
def Lexeme.source : Lexeme → List Char
  | .space text => text
  | .comment text => text
  | .block text => text
  | .word text => text
  | .quoted mark text => mark :: text
  | .unclosed text => text
  | .semi => [';']
  | .symbol c => [c]

/-- The text of tokens. -/
def source (ts : List Lexeme) : List Char := ts.flatMap Lexeme.source

/-- What begins a blank. -/
def isSpace (c : Char) : Bool :=
  c = ' ' || c = '\t' || c = '\n' || c = '\x0c' || c = '\r'

/-- The byte order mark, a blank of its own where no name goes on. -/
def byteOrderMark : Char := '\ufeff'

/-- What words are made of. -/
def isIdChar (c : Char) : Bool := c.isAlphanum || c = '_' || c = '$' || 0x80 ≤ c.toNat

theorem isIdChar_iff (c : Char) : isIdChar c = true ↔ (48 ≤ c.toNat ∧ c.toNat ≤ 57) ∨
    (65 ≤ c.toNat ∧ c.toNat ≤ 90) ∨ (97 ≤ c.toNat ∧ c.toNat ≤ 122) ∨ c.toNat = 95 ∨ c.toNat = 36 ∨
      128 ≤ c.toNat := by
  have hunder : c = '_' ↔ c.toNat = 95 := by
    rw [← Char.toNat_inj]
    exact Iff.rfl
  have hdollar : c = '$' ↔ c.toNat = 36 := by
    rw [← Char.toNat_inj]
    exact Iff.rfl
  have hupper : c.isUpper = true ↔ 65 ≤ c.toNat ∧ c.toNat ≤ 90 := by
    simp only [Char.isUpper, decide_eq_true_eq]
    exact Iff.rfl
  have hlower : c.isLower = true ↔ 97 ≤ c.toNat ∧ c.toNat ≤ 122 := by
    simp only [Char.isLower, Bool.and_eq_true, decide_eq_true_eq]
    exact Iff.rfl
  have hdigit : c.isDigit = true ↔ 48 ≤ c.toNat ∧ c.toNat ≤ 57 := by
    simp only [Char.isDigit, Bool.and_eq_true, decide_eq_true_eq]
    exact Iff.rfl
  simp only [isIdChar, Char.isAlphanum, Char.isAlpha, Bool.or_eq_true, decide_eq_true_eq, hunder,
    hdollar, hupper, hlower, hdigit]
  omega

theorem toUpper_cases (c : Char) : c.toUpper = c ∨
    (97 ≤ c.toNat ∧ c.toNat ≤ 122 ∧ c.toUpper.toNat = c.toNat - 32) := by
  by_cases h : 'a'.val ≤ c.val ∧ c.val ≤ 'z'.val
  · have hlow : 97 ≤ c.toNat := h.1
    have hhigh : c.toNat ≤ 122 := h.2
    refine .inr ⟨hlow, hhigh, ?_⟩
    have hval : c.toUpper.val = c.val + ('A'.val - 'a'.val) := by
      unfold Char.toUpper
      rw [dif_pos h]
    show c.toUpper.val.toNat = _
    rw [hval, UInt32.toNat_add]
    show (c.toNat + 4294967264) % 4294967296 = c.toNat - 32
    omega
  · exact .inl (dif_neg h)

theorem isIdChar_toUpper (c : Char) : isIdChar c.toUpper = isIdChar c := by
  rcases toUpper_cases c with h | ⟨hlow, hhigh, h⟩
  · rw [h]
  · rw [Bool.eq_iff_iff, isIdChar_iff, isIdChar_iff, h]
    omega

/-- The mark that ends a quotation begun with `mark`. -/
def closing (mark : Char) : Option Char :=
  if mark = '\'' ∨ mark = '"' ∨ mark = '\x60' then some mark
  else if mark = '[' then some ']'
  else none

/-- A quotation up to its closing mark, and what is behind it; a doubled mark stands for itself, except
in brackets. -/
def quotation (close : Char) : List Char → Option (List Char × List Char)
  | [] => none
  | [c] => if c = close then some ([c], []) else none
  | c :: d :: cs =>
      if c = close then
        if d = close ∧ close ≠ ']' then
          (quotation close cs).map fun r => (c :: d :: r.1, r.2)
        else some ([c], d :: cs)
      else (quotation close (d :: cs)).map fun r => (c :: r.1, r.2)

/-- A block comment from behind its `/*`. -/
def blockEnd : List Char → List Char × List Char
  | '*' :: '/' :: cs => (['*', '/'], cs)
  | c :: cs => (c :: (blockEnd cs).1, (blockEnd cs).2)
  | [] => ([], [])

/-- The first token, and what is behind it. -/
def next (c : Char) (cs : List Char) : Lexeme × List Char :=
  if isSpace c then
    (.space (c :: cs.takeWhile fun d => isSpace d || d = '\x0b'),
      cs.dropWhile fun d => isSpace d || d = '\x0b')
  else if c = byteOrderMark then (.space [c], cs)
  else if c = ';' then (.semi, cs)
  else if c = '-' ∧ cs.head? = some '-' then
    (.comment (c :: cs.takeWhile (· ≠ '\n')), cs.dropWhile (· ≠ '\n'))
  else if c = '/' ∧ cs.head? = some '*' ∧ cs.tail ≠ [] then
    (.block (c :: '*' :: (blockEnd cs.tail).1), (blockEnd cs.tail).2)
  else if isIdChar c then (.word (c :: cs.takeWhile isIdChar), cs.dropWhile isIdChar)
  else match closing c with
    | none => (.symbol c, cs)
    | some close =>
        match quotation close cs with
        | some (text, rest) => (.quoted c text, rest)
        | none => (.unclosed (c :: cs), [])

/-- The text is read as these tokens. -/
inductive Lexes : List Char → List Lexeme → Prop
  | nil : Lexes [] []
  | cons {c : Char} {cs : List Char} {ts : List Lexeme} (h : Lexes (next c cs).2 ts) :
      Lexes (c :: cs) ((next c cs).1 :: ts)

/-! ## The tokens are the text -/

theorem quotation_source {close : Char} {cs text rest : List Char}
    (h : quotation close cs = some (text, rest)) : text ++ rest = cs := by
  fun_induction quotation close cs generalizing text rest with
  | case1 => cases h
  | case2 => cases h; rfl
  | case3 => cases h
  | case4 d cs hd ih =>
      obtain ⟨r, hr, heq⟩ := Option.map_eq_some_iff.mp h
      cases heq
      rw [List.cons_append, List.cons_append, ih hr]
  | case5 => cases h; rfl
  | case6 c d cs hc ih =>
      obtain ⟨r, hr, heq⟩ := Option.map_eq_some_iff.mp h
      cases heq
      rw [List.cons_append, ih hr]

theorem blockEnd_source (cs : List Char) : (blockEnd cs).1 ++ (blockEnd cs).2 = cs := by
  fun_induction blockEnd cs with
  | case1 cs => rfl
  | case2 c cs _ ih => rw [List.cons_append, ih]
  | case3 => rfl

theorem next_source (c : Char) (cs : List Char) :
    (next c cs).1.source ++ (next c cs).2 = c :: cs := by
  fun_cases next c cs with
  | case1 =>
      show c :: (cs.takeWhile _ ++ cs.dropWhile _) = c :: cs
      rw [List.takeWhile_append_dropWhile]
  | case2 => rfl
  | case3 _ _ hsemi => rw [hsemi]; rfl
  | case4 =>
      show c :: (cs.takeWhile _ ++ cs.dropWhile _) = c :: cs
      rw [List.takeWhile_append_dropWhile]
  | case5 _ _ _ _ hblock =>
      obtain ⟨_, hstar, _⟩ := hblock
      show c :: '*' :: ((blockEnd cs.tail).1 ++ (blockEnd cs.tail).2) = c :: cs
      rw [blockEnd_source, List.cons_head?_tail hstar]
  | case6 =>
      show c :: (cs.takeWhile _ ++ cs.dropWhile _) = c :: cs
      rw [List.takeWhile_append_dropWhile]
  | case7 => rfl
  | case8 _ _ _ _ _ _ _ _ _ _ hquotation => exact congrArg (c :: ·) (quotation_source hquotation)
  | case9 => exact List.append_nil _

/-! ## What a token is made of -/

/-- What the text of a token looks like. -/
def Lexeme.Valid : Lexeme → Prop
  | .space text => text ≠ [] ∧ ∀ c ∈ text, isSpace c = true ∨ c = '\x0b' ∨ c = byteOrderMark
  | .comment text => ∃ rest, text = '-' :: '-' :: rest ∧ '\n' ∉ rest
  | .block text => ∃ rest, text = '/' :: '*' :: rest
  | .word text => text ≠ [] ∧ ∀ c ∈ text, isIdChar c = true
  | .quoted mark text => ∃ close inner, closing mark = some close ∧ text = inner ++ [close]
  | .unclosed text => ∃ c rest, text = c :: rest ∧ (closing c).isSome
  | .semi => True
  | .symbol c => isSpace c = false ∧ c ≠ ';' ∧ isIdChar c = false ∧ closing c = none

theorem quotation_closes {close : Char} {cs text rest : List Char}
    (h : quotation close cs = some (text, rest)) : ∃ inner, text = inner ++ [close] := by
  fun_induction quotation close cs generalizing text rest with
  | case1 => cases h
  | case2 => cases h; exact ⟨[], rfl⟩
  | case3 => cases h
  | case4 d cs hd ih =>
      obtain ⟨r, hr, heq⟩ := Option.map_eq_some_iff.mp h
      obtain ⟨inner, hinner⟩ := ih hr
      cases heq
      exact ⟨close :: d :: inner, congrArg (close :: d :: ·) hinner⟩
  | case5 => cases h; exact ⟨[], rfl⟩
  | case6 c d cs hc ih =>
      obtain ⟨r, hr, heq⟩ := Option.map_eq_some_iff.mp h
      obtain ⟨inner, hinner⟩ := ih hr
      cases heq
      exact ⟨c :: inner, congrArg (c :: ·) hinner⟩

theorem next_valid (c : Char) (cs : List Char) : (next c cs).1.Valid := by
  fun_cases next c cs with
  | case1 hspace =>
      refine ⟨List.cons_ne_nil _ _, List.forall_mem_cons.mpr ⟨.inl hspace, fun d hd => ?_⟩⟩
      have hblank := List.mem_takeWhile_imp hd
      rw [Bool.or_eq_true, decide_eq_true_eq] at hblank
      exact hblank.imp_right .inl
  | case2 _ hmark => exact ⟨List.cons_ne_nil _ _, List.forall_mem_singleton.mpr (.inr (.inr hmark))⟩
  | case3 => trivial
  | case4 _ _ _ hdash =>
      obtain ⟨rfl, hhead⟩ := hdash
      obtain ⟨ds, rfl⟩ : ∃ ds, cs = '-' :: ds := ⟨cs.tail, (List.cons_head?_tail hhead).symm⟩
      refine ⟨ds.takeWhile (· ≠ '\n'), rfl, fun hmem => ?_⟩
      simpa using List.mem_takeWhile_imp hmem
  | case5 _ _ _ _ hblock => exact ⟨_, by rw [hblock.1]⟩
  | case6 _ _ _ _ _ hid =>
      refine ⟨List.cons_ne_nil _ _, List.forall_mem_cons.mpr ⟨hid, fun d hd => ?_⟩⟩
      exact List.mem_takeWhile_imp hd
  | case7 hspace _ hsemi _ _ hid hnone =>
      exact ⟨Bool.eq_false_iff.mpr hspace, hsemi, Bool.eq_false_iff.mpr hid, hnone⟩
  | case8 _ _ _ _ _ _ close hclose text rest hquotation =>
      obtain ⟨inner, hinner⟩ := quotation_closes hquotation
      exact ⟨close, inner, hclose, hinner⟩
  | case9 _ _ _ _ _ _ close hclose => exact ⟨c, cs, rfl, by rw [hclose]; rfl⟩

theorem Lexeme.Valid.source_ne_nil {t : Lexeme} (h : t.Valid) : t.source ≠ [] := by
  cases t with
  | space => exact h.1
  | comment => obtain ⟨_, rfl, _⟩ := h; exact List.cons_ne_nil _ _
  | block => obtain ⟨_, rfl⟩ := h; exact List.cons_ne_nil _ _
  | word => exact h.1
  | unclosed => obtain ⟨_, _, rfl, _⟩ := h; exact List.cons_ne_nil _ _
  | _ => exact List.cons_ne_nil _ _

theorem next_length (c : Char) (cs : List Char) : (next c cs).2.length ≤ cs.length := by
  have hlength := congrArg List.length (next_source c cs)
  have hpos := List.length_pos_iff.mpr (next_valid c cs).source_ne_nil
  rw [List.length_append, List.length_cons] at hlength
  omega

/-! ## The tokens of a text -/

/-- Every step makes a token. -/
def lexer : Lexer Char Lexeme where
  next c cs := (some (next c cs).1, (next c cs).2)
  next_length_le := next_length

/-- The tokens of a text. -/
def lex (text : List Char) : List Lexeme := lexer.tokens text

theorem lexes_lex (text : List Char) : Lexes text (lex text) := by
  induction hn : text.length using Nat.strong_induction_on generalizing text with
  | _ n ih =>
      cases text with
      | nil => exact .nil
      | cons c cs =>
          have hlt : (next c cs).2.length < n := by
            rw [← hn, List.length_cons]
            exact Nat.lt_succ_of_le (next_length c cs)
          rw [lex, lexer.tokens_of_next rfl]
          exact .cons (ih _ hlt _ rfl)

theorem Lexes.valid {text : List Char} {ts : List Lexeme} (h : Lexes text ts) :
    ∀ t ∈ ts, t.Valid := by
  induction h with
  | nil => exact nofun
  | cons _ ih => exact List.forall_mem_cons.mpr ⟨next_valid _ _, ih⟩

/-- What can stand behind a token. -/
def Lexeme.Ends : Lexeme → List Char → Prop
  | .word _, rest => ∀ d ∈ rest.head?, isIdChar d = false
  | .comment _, rest => ∀ d ∈ rest.head?, d = '\n'
  | .symbol c, rest => c = '-' → ∀ d ∈ rest.head?, d ≠ '-'
  | .unclosed _, rest => rest = []
  | _, _ => True

theorem head?_dropWhile {p : Char → Bool} {cs : List Char} :
    ∀ d ∈ (cs.dropWhile p).head?, p d = false := by
  intro d hd
  have hnot := List.head?_dropWhile_not p cs
  rw [Option.mem_def.mp hd] at hnot
  simpa using hnot

theorem next_ends (c : Char) (cs : List Char) : (next c cs).1.Ends (next c cs).2 := by
  fun_cases next c cs with
  | case4 => exact fun d hd => by simpa using head?_dropWhile d hd
  | case6 => exact head?_dropWhile
  | case7 _ _ _ hdash =>
      rintro rfl d hd rfl
      exact hdash ⟨rfl, hd⟩
  | _ => trivial

/-! ## Statements -/

def Lexeme.isSpace : Lexeme → Bool
  | .space _ => true
  | _ => false

def Lexeme.isComment : Lexeme → Bool
  | .comment _ => true
  | .block _ => true
  | _ => false

/-- The tokens without the comments. -/
def code (ts : List Lexeme) : List Lexeme := ts.filter (!·.isComment)

/-- The tokens from the first one that is not a blank. -/
def skip (ts : List Lexeme) : List Lexeme := ts.dropWhile Lexeme.isSpace

/-- Behind the given words, in letters of either case. -/
def afterWords : List String → List Lexeme → Option (List Lexeme)
  | [], ts => some ts
  | k :: ks, ts =>
      match skip ts with
      | .word w :: rest => if w.map Char.toUpper = k.toList then afterWords ks rest else none
      | _ => none

section Words

variable {k : String} {ks ls : List String} {ts rest : List Lexeme} {t : Lexeme}

@[simp] theorem source_nil : source [] = [] := rfl

@[simp] theorem source_cons : source (t :: ts) = t.source ++ source ts := List.flatMap_cons

@[simp] theorem source_append : source (ts ++ rest) = source ts ++ source rest :=
  List.flatMap_append

theorem skip_suffix (ts : List Lexeme) : skip ts <:+ ts := List.dropWhile_suffix _

theorem isSpace_of_skip (h : skip ts = t :: rest) : t.isSpace = false := by
  have hnot := List.head?_dropWhile_not Lexeme.isSpace ts
  rw [skip] at h
  rw [h] at hnot
  simpa using hnot

theorem skip_of_head (h : t.isSpace = false) : skip (t :: ts) = t :: ts :=
  List.dropWhile_cons_of_neg (by rw [h]; exact Bool.false_ne_true)

theorem afterWords_cons : afterWords (k :: ks) ts = some rest ↔
    ∃ w r, skip ts = .word w :: r ∧ w.map Char.toUpper = k.toList ∧ afterWords ks r = some rest := by
  rw [afterWords]
  constructor
  · intro h
    split at h
    · rename_i w r hskip
      split_ifs at h with hw
      exact ⟨w, r, hskip, hw, h⟩
    · cases h
  · rintro ⟨w, r, hskip, hw, h⟩
    rw [hskip]
    dsimp only
    rw [if_pos hw, h]

theorem afterWords_suffix (h : afterWords ks ts = some rest) : rest <:+ ts := by
  induction ks generalizing ts with
  | nil =>
      cases h
      exact List.suffix_refl _
  | cons k ks ih =>
      obtain ⟨w, r, hskip, _, h⟩ := afterWords_cons.mp h
      exact (ih h).trans ((List.suffix_cons _ r).trans (hskip ▸ skip_suffix ts))

theorem afterWords_append (ks ls : List String) (ts : List Lexeme) :
    afterWords (ks ++ ls) ts = (afterWords ks ts).bind (afterWords ls) := by
  induction ks generalizing ts with
  | nil => rfl
  | cons k ks ih =>
      rw [List.cons_append, afterWords, afterWords]
      split
      · split_ifs
        · exact ih _
        · rfl
      · rfl

/-- Two readings of the same words agree on the first. -/
theorem afterWords_head {k' : String} {ks' : List String} (h : (afterWords (k :: ks) ts).isSome)
    (h' : (afterWords (k' :: ks') ts).isSome) : k = k' := by
  obtain ⟨_, h⟩ := Option.isSome_iff_exists.mp h
  obtain ⟨_, h'⟩ := Option.isSome_iff_exists.mp h'
  obtain ⟨w, r, hskip, hw, _⟩ := afterWords_cons.mp h
  obtain ⟨w', r', hskip', hw', _⟩ := afterWords_cons.mp h'
  rw [hskip, List.cons.injEq, Lexeme.word.injEq] at hskip'
  obtain ⟨rfl, rfl⟩ := hskip'
  exact String.toList_inj.mp (hw.symm.trans hw')

theorem afterWords_second {k' l l' : String} {ks' : List String}
    (h : (afterWords (k :: l :: ks) ts).isSome) (h' : (afterWords (k' :: l' :: ks') ts).isSome) :
    l = l' := by
  obtain ⟨_, h⟩ := Option.isSome_iff_exists.mp h
  obtain ⟨_, h'⟩ := Option.isSome_iff_exists.mp h'
  obtain ⟨w, r, hskip, _, h⟩ := afterWords_cons.mp h
  obtain ⟨w', r', hskip', _, h'⟩ := afterWords_cons.mp h'
  rw [hskip, List.cons.injEq] at hskip'
  obtain ⟨_, rfl⟩ := hskip'
  exact afterWords_head (by rw [h]; rfl) (by rw [h']; rfl)

end Words

/-- A table's name as a statement gives it, in upper case. -/
structure Name where
  schema : Option (List Char)
  table : List Char
  deriving DecidableEq

/-- Doubled closing marks stand for one. -/
def undouble (close : Char) : List Char → List Char
  | c :: d :: cs => if c = close ∧ d = close then c :: undouble close cs else c :: undouble close (d :: cs)
  | cs => cs

/-- The name a token spells. -/
def Lexeme.name : Lexeme → Option (List Char)
  | .word text => some (text.map Char.toUpper)
  | .quoted mark text =>
      (closing mark).map fun close => (undouble close text.dropLast).map Char.toUpper
  | _ => none

/-- The token is this word, in letters of either case. -/
def Lexeme.isKeyword (k : String) : Lexeme → Bool
  | .word w => w.map Char.toUpper = k.toList
  | _ => false

/-- The table's name the tokens begin with, and what is behind it. -/
def tableName (ts : List Lexeme) : Option (Name × List Lexeme) :=
  match skip ts with
  | t :: rest =>
      match skip rest with
      | .symbol '.' :: behind =>
          match skip behind with
          | u :: rest' => t.name.bind fun a => u.name.map fun b => (⟨some a, b⟩, rest')
          | [] => none
      | _ => t.name.map fun a => (⟨none, a⟩, rest)
  | [] => none

/-- The tokens between semicolons. -/
def segments (ts : List Lexeme) : List (List Lexeme) := ts.splitOn .semi

/-- The words a trigger begins with. -/
def triggerWords : List (List String) :=
  [["CREATE", "TRIGGER"], ["CREATE", "TEMP", "TRIGGER"], ["CREATE", "TEMPORARY", "TRIGGER"]]

/-- The tokens begin a trigger, which may be explained. -/
def isTrigger (ts : List Lexeme) : Bool :=
  (triggerWords ++ triggerWords.map ("EXPLAIN" :: ·) ++
    triggerWords.map (["EXPLAIN", "QUERY", "PLAN"] ++ ·)).any fun words => (afterWords words ts).isSome

/-- `END` alone. -/
def isEnd (ts : List Lexeme) : Bool :=
  match afterWords ["END"] ts with
  | some rest => rest.all Lexeme.isSpace
  | none => false

inductive Statement
  | plain (ts : List Lexeme)
  /-- Up to its first semicolon, and the further commands up to `END`. -/
  | trigger (head : List Lexeme) (body : List (List Lexeme))
  /-- A trigger whose `END` does not come. -/
  | unended (head : List Lexeme) (body : List (List Lexeme))
  deriving DecidableEq

/-- The statements of segments; the first argument is a trigger that has begun. -/
def divide : Option (List Lexeme × List (List Lexeme)) → List (List Lexeme) → List Statement
  | none, [] => []
  | some (head, body), [] => [.unended head body]
  | none, ts :: rest =>
      if isTrigger ts = true then divide (some (ts, [])) rest else .plain ts :: divide none rest
  | some (head, body), ts :: rest =>
      if isEnd ts = true then .trigger head body :: divide none rest
      else divide (some (head, body ++ [ts])) rest

/-- The statements of a text. -/
def statements (text : List Char) : List Statement := divide none (segments (code (lex text)))

/-! ## Tokens that stand apart -/

def Lexeme.isWord : Lexeme → Bool
  | .word _ => true
  | _ => false

def Lexeme.isBlock : Lexeme → Bool
  | .block _ => true
  | _ => false

/-- Tokens as a text has them: no word runs into another. -/
structure Apart (ts : List Lexeme) : Prop where
  valid : ∀ t ∈ ts, t.Valid
  chain : ts.IsChain fun t u => t.isWord = true → u.isWord = false

theorem Apart.suffix {ts rest : List Lexeme} (h : Apart ts) (hs : rest <:+ ts) : Apart rest :=
  ⟨fun t ht => h.valid t (hs.subset ht), h.chain.suffix hs⟩

theorem Lexeme.Valid.isWord_eq_false {t : Lexeme} (h : t.Valid) {c : Char} {cs : List Char}
    (hsource : t.source = c :: cs) (hc : isIdChar c = false) : t.isWord = false := by
  cases t with
  | word text =>
      have htext : text = c :: cs := hsource
      have hid := h.2 c (htext ▸ List.mem_cons_self)
      rw [hc] at hid
      cases hid
  | _ => rfl

theorem next_source_head (c : Char) (cs : List Char) : ∃ rest, (next c cs).1.source = c :: rest := by
  have hsource := next_source c cs
  obtain ⟨d, rest, hd⟩ := List.exists_cons_of_ne_nil (next_valid c cs).source_ne_nil
  rw [hd, List.cons_append, List.cons.injEq] at hsource
  exact ⟨rest, hsource.1 ▸ hd⟩

/-- Where a text begins with no word, its tokens do, also behind its comments. -/
theorem Lexes.head_not_word {text : List Char} {ts : List Lexeme} (h : Lexes text ts)
    (hhead : ∀ d ∈ text.head?, isIdChar d = false) (hblock : ∀ t ∈ ts, t.isBlock = false) :
    ∀ u ∈ (code ts).head?, u.isWord = false := by
  induction h with
  | nil => exact nofun
  | @cons c cs ts _ ih =>
      obtain ⟨hfirst, hblock⟩ := List.forall_mem_cons.mp hblock
      cases hcomment : (next c cs).1.isComment with
      | false =>
          rw [code, List.filter_cons_of_pos (by rw [hcomment]; rfl)]
          rintro u ⟨⟩
          obtain ⟨rest, hsource⟩ := next_source_head c cs
          exact (next_valid c cs).isWord_eq_false hsource (hhead c rfl)
      | true =>
          rw [code, List.filter_cons_of_neg (by rw [hcomment]; decide)]
          refine ih (fun d hd => ?_) hblock
          -- A line comment is followed by the end of its line.
          have hends := next_ends c cs
          cases hnext : (next c cs).1 with
          | comment text =>
              rw [hnext] at hends
              rw [hends d hd]
              rfl
          | block text =>
              rw [hnext] at hfirst
              cases hfirst
          | _ =>
              rw [hnext] at hcomment
              cases hcomment

theorem Lexes.apart {text : List Char} {ts : List Lexeme} (h : Lexes text ts)
    (hblock : ∀ t ∈ ts, t.isBlock = false) : Apart (code ts) := by
  refine ⟨fun t ht => h.valid t (List.mem_of_mem_filter ht), ?_⟩
  induction h with
  | nil => exact .nil
  | @cons c cs ts hrest ih =>
      obtain ⟨_, hblock⟩ := List.forall_mem_cons.mp hblock
      cases hcomment : (next c cs).1.isComment with
      | true =>
          rw [code, List.filter_cons_of_neg (by rw [hcomment]; decide)]
          exact ih hblock
      | false =>
          rw [code, List.filter_cons_of_pos (by rw [hcomment]; rfl)]
          refine List.isChain_cons.mpr ⟨fun u hu hword => ?_, ih hblock⟩
          have hends := next_ends c cs
          cases hnext : (next c cs).1 with
          | word text =>
              rw [hnext] at hends
              exact hrest.head_not_word hends hblock u hu
          | _ =>
              rw [hnext] at hword
              cases hword

end Dagq.Lib.Sql
