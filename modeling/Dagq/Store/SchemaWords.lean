/-
# Dagq.Store.SchemaWords -- what the checker's words tell about the tokens.

A word of the checker that is made of the characters of SQLite's words is a token, because both end
where the text has no such character; a name that stands in one word is kept by its key.
-/
import Dagq.Store.Migrations

namespace Dagq.Schema

open Lib Sql

/-! ## Letters of one case -/

theorem isWhitespace_toUpper (c : Char) : isWhitespace c.toUpper = isWhitespace c := by
  rcases toUpper_cases c with h | ⟨hlow, hhigh, h⟩
  · rw [h]
  · have hletter : isWhitespace c = false := by
      simp only [isWhitespace, Bool.or_eq_false_iff, Bool.and_eq_false_iff, decide_eq_false_iff_not]
      omega
    have hcapital : isWhitespace c.toUpper = false := by
      simp only [isWhitespace, h, Bool.or_eq_false_iff, Bool.and_eq_false_iff,
        decide_eq_false_iff_not]
      omega
    rw [hletter, hcapital]

theorem words_uppercase (text : List Char) : words isWhitespace (uppercase text) = upperWords text :=
  words_map isWhitespace_toUpper text

theorem isIdChar_of_uppercase {w v : List Char} (h : uppercase w = v) (hv : ∀ c ∈ v, isIdChar c = true) :
    ∀ c ∈ w, isIdChar c = true := by
  intro c hc
  rw [← isIdChar_toUpper]
  exact hv _ (h ▸ List.mem_map_of_mem hc)

/-! ## Tokens -/

/-- Tokens without comments that the checker sees as they are. -/
structure Clean (ts : List Lexeme) : Prop where
  apart : Apart ts
  plain : ∀ t ∈ ts, isPlain t = true
  code : ∀ t ∈ ts, t.isComment = false

variable {ts rest : List Lexeme} {t : Lexeme} {w : List Char} {ws : List (List Char)}

theorem Clean.suffix (h : Clean ts) (hs : rest <:+ ts) : Clean rest :=
  ⟨h.apart.suffix hs, fun t ht => h.plain t (hs.subset ht), fun t ht => h.code t (hs.subset ht)⟩

theorem Clean.isWord (h : Clean (.word w :: ts)) : IsWord isWhitespace w := by
  refine ⟨(h.apart.valid _ List.mem_cons_self).1, fun c hc => ?_⟩
  simpa using List.all_eq_true.mp (h.plain _ List.mem_cons_self) c hc

theorem closing_mark {c : Char} (h : (closing c).isSome) : isWhitespace c = false ∧ isIdChar c = false := by
  unfold closing at h
  split_ifs at h with hmark hbracket
  · rcases hmark with rfl | rfl | rfl <;> decide
  · rw [hbracket]
    decide
  · cases h

/-- A token that is no blank begins with no blank, and only a word with a character of words. -/
theorem Clean.solid (h : Clean (t :: ts)) (hs : t.isSpace = false) :
    ∃ c cs, t.source = c :: cs ∧ isWhitespace c = false ∧ (t.isWord = false → isIdChar c = false) := by
  have hvalid := h.apart.valid t List.mem_cons_self
  have hplain := h.plain t List.mem_cons_self
  have hcode := h.code t List.mem_cons_self
  cases t with
  | space => cases hs
  | comment => cases hcode
  | block => cases hcode
  | word text =>
      obtain ⟨c, cs, rfl⟩ := List.exists_cons_of_ne_nil hvalid.1
      exact ⟨c, cs, rfl, by simpa using List.all_eq_true.mp hplain c List.mem_cons_self, nofun⟩
  | quoted mark text =>
      obtain ⟨close, _, hclose, _⟩ := hvalid
      obtain ⟨hblank, hid⟩ := closing_mark (by rw [hclose]; rfl)
      exact ⟨mark, text, rfl, hblank, fun _ => hid⟩
  | unclosed text =>
      obtain ⟨c, rest, rfl, hclose⟩ := hvalid
      exact ⟨c, rest, rfl, (closing_mark hclose).1, fun _ => (closing_mark hclose).2⟩
  | semi => exact ⟨';', [], rfl, by decide, fun _ => by decide⟩
  | symbol c => exact ⟨c, [], rfl, by simpa [isPlain] using hplain, fun _ => hvalid.2.2.1⟩

theorem Clean.blank_of_space (h : Clean (t :: ts)) (hs : t.isSpace = true) :
    ∀ c ∈ t.source, isWhitespace c = true := by
  have hplain := h.plain t List.mem_cons_self
  cases t with
  | space text => exact List.all_eq_true.mp hplain
  | _ => cases hs

theorem isIdChar_of_space {c : Char} (h : isSpace c = true ∨ c = '\x0b' ∨ c = byteOrderMark)
    (hblank : isWhitespace c = true) : isIdChar c = false := by
  rcases h with h | rfl | rfl
  · simp only [isSpace, Bool.or_eq_true, decide_eq_true_eq] at h
    rcases h with (((rfl | rfl) | rfl) | rfl) | rfl <;> decide
  · decide
  · cases hblank

theorem Clean.words_skip (h : Clean ts) :
    words isWhitespace (source ts) = words isWhitespace (source (skip ts)) := by
  induction ts with
  | nil => rfl
  | cons t ts ih =>
      cases hs : t.isSpace with
      | true =>
          have hskip : skip (t :: ts) = skip ts := List.dropWhile_cons_of_pos hs
          rw [hskip, source_cons, words_blanks (h.blank_of_space hs)]
          exact ih (h.suffix (List.suffix_cons t ts))
      | false => rw [skip_of_head hs]

/-- What is behind a word does not go on with a character of words. -/
theorem Clean.ends_word {text : List Char} (h : Clean (.word text :: rest)) :
    ∀ c ∈ (source rest).head?, isIdChar c = false := by
  cases rest with
  | nil => exact nofun
  | cons u rest =>
      have hword : u.isWord = false := (List.isChain_cons.mp h.apart.chain).1 u rfl rfl
      have hrest := h.suffix (List.suffix_cons _ _)
      cases hs : u.isSpace with
      | true =>
          have hblank := hrest.blank_of_space hs
          have hvalid := (hrest.apart.valid u List.mem_cons_self).source_ne_nil
          obtain ⟨c, cs, hsource⟩ := List.exists_cons_of_ne_nil hvalid
          intro d hd
          rw [source_cons, hsource] at hd
          obtain rfl := Option.some.inj hd
          have hc := hblank c (hsource ▸ List.mem_cons_self)
          cases u with
          | space text =>
              have htext : text = c :: cs := hsource
              exact isIdChar_of_space
                ((hrest.apart.valid _ List.mem_cons_self).2 c (htext ▸ List.mem_cons_self)) hc
          | _ => cases hs
      | false =>
          obtain ⟨c, cs, hsource, _, hid⟩ := hrest.solid hs
          intro d hd
          rw [source_cons, hsource] at hd
          obtain rfl := Option.some.inj hd
          exact hid hword

/-- A word of the checker made of the characters of words is the first token. -/
theorem Clean.first_word (h : Clean ts) (hw : words isWhitespace (source ts) = w :: ws)
    (hid : ∀ c ∈ w, isIdChar c = true) :
    ∃ rest, skip ts = .word w :: rest ∧ words isWhitespace (source rest) = ws ∧
      Breaks isWhitespace (source rest) := by
  rw [h.words_skip] at hw
  have hskipped := h.suffix (skip_suffix ts)
  cases hskip : skip ts with
  | nil =>
      rw [hskip] at hw
      cases hw
  | cons t rest =>
      rw [hskip] at hw hskipped
      obtain ⟨c, cs, hsource, hsolid, hother⟩ := hskipped.solid (isSpace_of_skip hskip)
      obtain ⟨p, q, htext, hp, hword, hq, hws⟩ := words_eq_cons hw
      -- The text begins with no blank, so with the word.
      have hnil : p = [] := by
        cases p with
        | nil => rfl
        | cons b p =>
            rw [source_cons, hsource] at htext
            have hblank := hp b List.mem_cons_self
            rw [← (List.cons.inj htext).1, hsolid] at hblank
            cases hblank
      subst hnil
      obtain ⟨d, v, rfl⟩ := List.exists_cons_of_ne_nil hword.nonempty
      have hd : isIdChar c = true := by
        rw [source_cons, hsource] at htext
        rw [(List.cons.inj htext).1]
        exact hid d List.mem_cons_self
      cases t with
      | word text =>
          have hvalid := hskipped.apart.valid _ List.mem_cons_self
          have hplain := List.all_eq_true.mp (hskipped.plain _ List.mem_cons_self)
          have hsplit : text ++ source rest = d :: v ++ q := htext
          -- Both go on as far as there are characters of words.
          rcases List.append_eq_append_iff.mp hsplit with ⟨more, hlonger, hbehind⟩ | ⟨more, hlonger, hbehind⟩
          · cases more with
            | nil =>
                rw [List.append_nil] at hlonger
                subst hlonger
                subst hbehind
                exact ⟨rest, rfl, hws, hq⟩
            | cons a more =>
                have hno := hskipped.ends_word a (by rw [hbehind]; rfl)
                rw [hid a (hlonger ▸ List.mem_append_right _ List.mem_cons_self)] at hno
                cases hno
          · cases more with
            | nil =>
                rw [List.append_nil] at hlonger
                subst hlonger
                subst hbehind
                exact ⟨rest, rfl, hws, hq⟩
            | cons a more =>
                have hblank := hq a (by rw [hbehind]; rfl)
                have hno := hplain a (hlonger ▸ List.mem_append_right _ List.mem_cons_self)
                rw [hblank] at hno
                cases hno
      | _ =>
          have hno := hother rfl
          rw [hd] at hno
          cases hno

theorem behind_eq {ks : List String} {l r : List (List Char)} :
    behind ks l = some r ↔ l = ks.map String.toList ++ r := by
  unfold behind
  induction ks generalizing l with
  | nil =>
      rw [List.map_nil, List.isPrefixOf?, Option.some.injEq]
      rfl
  | cons k ks ih =>
      cases l with
      | nil =>
          constructor
          · exact nofun
          · exact nofun
      | cons w l =>
          rw [List.map_cons, List.isPrefixOf?, List.cons_append, List.cons.injEq]
          split_ifs with hk
          · rw [ih, and_iff_right (eq_of_beq hk).symm]
          · exact iff_of_false nofun fun h => hk (beq_iff_eq.mpr h.1.symm)

/-- The characters of words alone. -/
def areWords (ks : List String) : Bool := ks.all fun k => k.toList.all isIdChar

/-- Where the checker sees the words, SQLite does. -/
theorem Clean.afterWords_of_words {ks : List String} (h : Clean ts) (hks : areWords ks = true)
    (hws : upperWords (source ts) = ks.map String.toList ++ ws) :
    ∃ rest, afterWords ks ts = some rest ∧ upperWords (source rest) = ws ∧
      (ks ≠ [] → Breaks isWhitespace (source rest)) := by
  induction ks generalizing ts with
  | nil => exact ⟨ts, rfl, hws, fun hne => absurd rfl hne⟩
  | cons k ks ih =>
      rw [areWords, List.all_cons, Bool.and_eq_true] at hks
      obtain ⟨w, v, hw, hk, hv⟩ := List.map_eq_cons_iff.mp hws
      obtain ⟨r, hskip, hr, hbreaks⟩ := h.first_word hw
        (isIdChar_of_uppercase hk (List.all_eq_true.mp hks.1))
      have hsuffix : r <:+ ts := (List.suffix_cons _ r).trans (hskip ▸ skip_suffix ts)
      obtain ⟨rest, hrest, hwords, hend⟩ := ih (h.suffix hsuffix) hks.2
        (by rw [upperWords, hr]; exact hv)
      refine ⟨rest, afterWords_cons.mpr ⟨w, r, hskip, hk, hrest⟩, hwords, fun _ => ?_⟩
      cases ks with
      | nil =>
          cases hrest
          exact hbreaks
      | cons => exact hend (List.cons_ne_nil _ _)

theorem Clean.breaks_of_afterWords {k : String} {ks : List String} {text : List Char}
    (h : Clean (.word text :: ts)) (hk : (afterWords (k :: ks) ts).isSome) :
    Breaks isWhitespace (source ts) := by
  obtain ⟨r, hr⟩ := Option.isSome_iff_exists.mp hk
  obtain ⟨w, _, hskip, _, _⟩ := afterWords_cons.mp hr
  cases ts with
  | nil => exact .nil
  | cons t ts =>
      have hrest := h.suffix (List.suffix_cons _ _)
      cases hs : t.isSpace with
      | true =>
          have hblank := hrest.blank_of_space hs
          obtain ⟨c, cs, hsource⟩ :=
            List.exists_cons_of_ne_nil (hrest.apart.valid t List.mem_cons_self).source_ne_nil
          rw [source_cons, hsource]
          exact .cons (hblank c (hsource ▸ List.mem_cons_self)) _
      | false =>
          -- Two words do not follow one another.
          rw [skip_of_head hs] at hskip
          have hword := (List.isChain_cons.mp h.apart.chain).1 t rfl rfl
          rw [(List.cons.inj hskip).1] at hword
          cases hword

/-- Where SQLite sees the words and the last of them ends in a blank, the checker does. -/
theorem Clean.words_of_afterWords {ks : List String} (h : Clean ts)
    (hk : afterWords ks ts = some rest) (hend : Breaks isWhitespace (source rest)) :
    upperWords (source ts) = ks.map String.toList ++ upperWords (source rest) := by
  induction ks generalizing ts with
  | nil =>
      cases hk
      rfl
  | cons k ks ih =>
      obtain ⟨w, r, hskip, hw, hr⟩ := afterWords_cons.mp hk
      have hskipped := h.suffix (skip_suffix ts)
      rw [hskip] at hskipped
      have hword := hskipped.isWord
      have hbreaks : Breaks isWhitespace (source r) := by
        cases ks with
        | nil =>
            cases hr
            exact hend
        | cons => exact hskipped.breaks_of_afterWords (by rw [hr]; rfl)
      rw [upperWords, h.words_skip, hskip, source_cons]
      show (words isWhitespace (w ++ source r)).map uppercase = _
      rw [hword.words_append hbreaks, List.map_cons, List.map_cons, List.cons_append,
        ← ih (hskipped.suffix (List.suffix_cons _ _)) hr, ← hw]
      rfl

/-! ## Names -/

/-- A name is made of these, and the points between its parts. -/
def isNameChar (c : Char) : Bool := isIdChar c || c = '.'

/-- What a key keeps of the name it is read from. -/
def nameText (key : List Char) : List Char := key.filter isNameChar

/-- The text of a name, its parts with a point between. -/
def textOf (name : Name) : List Char :=
  match name.schema with
  | some schema => schema ++ '.' :: name.table
  | none => name.table

/-- The name is made of the characters of words. -/
structure IsPlainName (name : Name) : Prop where
  schema : ∀ part ∈ name.schema, ∀ c ∈ part, isIdChar c = true
  table : ∀ c ∈ name.table, isIdChar c = true

theorem no_point {part : List Char} (h : ∀ c ∈ part, isIdChar c = true) : '.' ∉ part := by
  intro hmem
  have hpoint := h '.' hmem
  revert hpoint
  decide

theorem textOf_inj {a b : Name} (ha : IsPlainName a) (hb : IsPlainName b) (h : textOf a = textOf b) :
    a = b := by
  obtain ⟨schema, table⟩ := a
  obtain ⟨schema', table'⟩ := b
  have htable := no_point ha.table
  have htable' := no_point hb.table
  cases schema with
  | none =>
      cases schema' with
      | none => exact congrArg _ h
      | some part' =>
          have hpoint : '.' ∈ table := by
            rw [show table = part' ++ '.' :: table' from h]
            exact List.mem_append_right _ List.mem_cons_self
          exact absurd hpoint htable
  | some part =>
      cases schema' with
      | none =>
          have hpoint : '.' ∈ table' := by
            rw [← show part ++ '.' :: table = table' from h]
            exact List.mem_append_right _ List.mem_cons_self
          exact absurd hpoint htable'
      | some part' =>
          have hpart := no_point (ha.schema part rfl)
          have h : part ++ '.' :: table = part' ++ '.' :: table' := h
          obtain ⟨rfl, -, rfl⟩ := (List.append_cons_inj_of_notMem hpart htable).mp h
          rfl

theorem filter_dropWhile {p q : Char → Bool} (h : ∀ c, q c = true → p c = false) (text : List Char) :
    (text.dropWhile q).filter p = text.filter p := by
  induction text with
  | nil => rfl
  | cons c text ih =>
      cases hq : q c with
      | true =>
          rw [List.dropWhile_cons_of_pos hq, ih,
            List.filter_cons_of_neg (by rw [h c hq]; exact Bool.false_ne_true)]
      | false => rw [List.dropWhile_cons_of_neg (by rw [hq]; exact Bool.false_ne_true)]

theorem nameText_tableName (word : List Char) :
    nameText (tableName word) = (word.takeWhile (· ≠ '(')).filter isNameChar := by
  have hmark : ∀ c, isQuoteMark c = true → isNameChar c = false := by
    intro c hc
    simp only [isQuoteMark, Bool.or_eq_true, decide_eq_true_eq] at hc
    rcases hc with ((rfl | rfl) | rfl) | rfl <;> decide
  rw [nameText, tableName, List.filter_reverse, filter_dropWhile hmark, List.filter_reverse,
    List.reverse_reverse, filter_dropWhile hmark]

theorem undouble_of_not_mem {close : Char} {text : List Char} (h : close ∉ text) :
    undouble close text = text := by
  fun_induction undouble close text with
  | case1 c d cs hdouble => exact absurd (hdouble.1 ▸ List.mem_cons_self) h
  | case2 c d cs _ ih => rw [ih (mt (List.mem_cons_of_mem c) h)]
  | case3 => rfl

/-- What the text of a name's tokens is made of. -/
def InName (c : Char) : Prop := isIdChar c = true ∨ c ∈ ['\'', '"', '\x60', '[', ']', '.']

theorem InName.toUpper {c : Char} (h : InName c) : c.toUpper ≠ '(' := by
  rcases h with h | h
  · intro heq
    rw [← isIdChar_toUpper, heq] at h
    revert h
    decide
  · simp only [List.mem_cons, List.not_mem_nil, or_false] at h
    rcases h with rfl | rfl | rfl | rfl | rfl | rfl <;> decide

structure Spells (t : Lexeme) (a : List Char) : Prop where
  isWord : IsWord isWhitespace t.source
  inName : ∀ c ∈ t.source, InName c
  kept : (uppercase t.source).filter isNameChar = a
  plain : ∀ c ∈ a, isIdChar c = true
  name_eq : t.name = some a
  notSpace : t.isSpace = false

theorem filter_isNameChar {text : List Char} (h : ∀ c ∈ text, isIdChar c = true) :
    (uppercase text).filter isNameChar = uppercase text := by
  refine List.filter_eq_self.mpr fun c hc => ?_
  obtain ⟨d, hd, rfl⟩ := List.mem_map.mp hc
  rw [isNameChar, isIdChar_toUpper, h d hd]
  rfl

theorem isIdChar_uppercase {text : List Char} (h : ∀ c ∈ text, isIdChar c = true) :
    ∀ c ∈ uppercase text, isIdChar c = true := by
  intro c hc
  obtain ⟨d, hd, rfl⟩ := List.mem_map.mp hc
  rw [isIdChar_toUpper]
  exact h d hd

theorem closing_cases {c d : Char} (h : closing c = some d) :
    (c = '\'' ∧ d = '\'') ∨ (c = '"' ∧ d = '"') ∨ (c = '\x60' ∧ d = '\x60') ∨ (c = '[' ∧ d = ']') := by
  unfold closing at h
  split_ifs at h with hmark hbracket
  · obtain rfl := Option.some.inj h
    rcases hmark with rfl | rfl | rfl <;> decide
  · obtain rfl := Option.some.inj h
    rw [hbracket]
    decide

theorem Clean.spells {a : List Char} (h : Clean (t :: ts)) (hpart : part t = some a) : Spells t a := by
  have hvalid := h.apart.valid t List.mem_cons_self
  have hplain := h.plain t List.mem_cons_self
  cases t with
  | word text =>
      cases hpart
      have hsolid := List.all_eq_true.mp hplain
      exact ⟨⟨hvalid.1, fun c hc => by simpa using hsolid c hc⟩, fun c hc => .inl (hvalid.2 c hc),
        filter_isNameChar hvalid.2, isIdChar_uppercase hvalid.2, rfl, rfl⟩
  | quoted mark text =>
      obtain ⟨close, inner, hclose, rfl⟩ := hvalid
      rw [part, List.dropLast_concat] at hpart
      split_ifs at hpart with hinner
      obtain rfl := Option.some.inj hpart
      obtain ⟨_, hall⟩ := hinner
      rw [List.all_eq_true] at hall
      simp only [Bool.and_eq_true, Bool.not_eq_true'] at hall
      have hid : ∀ c ∈ inner, isIdChar c = true := fun c hc => (hall c hc).1
      have hsolid : ∀ c ∈ inner, isWhitespace c = false := fun c hc => (hall c hc).2
      have hmarks : (isWhitespace mark = false ∧ isWhitespace close = false) ∧
          (InName mark ∧ InName close) ∧ isIdChar close = false ∧
          isNameChar mark.toUpper = false ∧ isNameChar close.toUpper = false := by
        rcases closing_cases hclose with ⟨rfl, rfl⟩ | ⟨rfl, rfl⟩ | ⟨rfl, rfl⟩ | ⟨rfl, rfl⟩ <;>
          exact ⟨by decide, ⟨.inr (by decide), .inr (by decide)⟩, by decide⟩
      obtain ⟨⟨hmark, hcloseSolid⟩, ⟨hmarkIn, hcloseIn⟩, hnot, hdrop, hdropClose⟩ := hmarks
      have hsource : (Lexeme.quoted mark (inner ++ [close])).source = mark :: (inner ++ [close]) := rfl
      refine { isWord := ⟨List.cons_ne_nil _ _, ?_⟩, inName := ?_, kept := ?_,
               plain := isIdChar_uppercase hid, name_eq := ?_, notSpace := rfl }
      · rw [hsource]
        refine List.forall_mem_cons.mpr ⟨hmark, fun c hc => ?_⟩
        rcases List.mem_append.mp hc with hc | hc
        · exact hsolid c hc
        · rw [List.mem_singleton.mp hc]
          exact hcloseSolid
      · rw [hsource]
        refine List.forall_mem_cons.mpr ⟨hmarkIn, fun c hc => ?_⟩
        rcases List.mem_append.mp hc with hc | hc
        · exact .inl (hid c hc)
        · rw [List.mem_singleton.mp hc]
          exact hcloseIn
      · rw [hsource, uppercase, List.map_cons, List.map_append, List.map_singleton,
          List.filter_cons_of_neg (by rw [hdrop]; exact Bool.false_ne_true), List.filter_append,
          List.filter_cons_of_neg (by rw [hdropClose]; exact Bool.false_ne_true), List.filter_nil,
          List.append_nil]
        exact filter_isNameChar hid
      · have hfree : close ∉ inner := fun hmem => by
          rw [hid close hmem] at hnot
          cases hnot
        rw [Lexeme.name, hclose, Option.map_some, List.dropLast_concat, undouble_of_not_mem hfree]
        rfl
  | _ => cases hpart

/-- What stands behind a name up to the next blank: nothing, or a parenthesis and more. -/
theorem Clean.glued (h : Clean rest) (hends : endsName rest = true) : ∃ g q, source rest = g ++ q ∧
    g.takeWhile (· ≠ '(') = [] ∧ (∀ c ∈ g, isWhitespace c = false) ∧ Breaks isWhitespace q ∧
    (rest.head?.any Lexeme.isSpace = true → q = source rest) := by
  cases rest with
  | nil => exact ⟨[], [], rfl, rfl, nofun, .nil, fun _ => rfl⟩
  | cons t rest =>
      cases t with
      | space text =>
          have hblank := h.blank_of_space rfl
          obtain ⟨c, cs, hsource⟩ :=
            List.exists_cons_of_ne_nil (h.apart.valid _ List.mem_cons_self).source_ne_nil
          refine ⟨[], source (.space text :: rest), rfl, rfl, nofun, ?_, fun _ => rfl⟩
          rw [source_cons, hsource]
          exact .cons (hblank c (hsource ▸ List.mem_cons_self)) _
      | symbol c =>
          obtain rfl : c = '(' := of_decide_eq_true hends
          refine ⟨'(' :: (source rest).takeWhile (!isWhitespace ·),
            (source rest).dropWhile (!isWhitespace ·), ?_, rfl, ?_, fun c hc => ?_, nofun⟩
          · rw [List.cons_append, List.takeWhile_append_dropWhile]
            rfl
          · refine List.forall_mem_cons.mpr ⟨by decide, fun c hc => ?_⟩
            simpa using List.mem_takeWhile_imp hc
          · have hnot := List.head?_dropWhile_not (!isWhitespace ·) (source rest)
            rw [Option.mem_def] at hc
            rw [hc] at hnot
            simpa using hnot
      | _ => cases hends

/-- What is written where a name stands as one word: SQLite reads the name, and the key of the checker's
word keeps it. -/
structure NameWord (ts : List Lexeme) (name : Name) (rest : List Lexeme) : Prop where
  tableName_eq : Sql.tableName ts = some (name, rest)
  suffix : rest <:+ ts
  plain : IsPlainName name
  word : ∃ w ws, upperWords (source ts) = w :: ws ∧ nameText (tableName w) = textOf name ∧
    (rest.head?.any Lexeme.isSpace = true → ws = upperWords (source rest))

/-- The tokens of a name make one word of the checker with what is glued to them. -/
theorem Clean.nameWord (h : Clean ts) (named : List Lexeme) (hskip : skip ts = named ++ rest)
    (hends : endsName rest = true) (hsolid : IsWord isWhitespace (source named))
    (hin : ∀ c ∈ source named, InName c) :
    ∃ w ws, upperWords (source ts) = w :: ws ∧
      nameText (tableName w) = (uppercase (source named)).filter isNameChar ∧
      (rest.head?.any Lexeme.isSpace = true → ws = upperWords (source rest)) := by
  have hsuffix : rest <:+ ts := (List.suffix_append named rest).trans (hskip ▸ skip_suffix ts)
  obtain ⟨g, q, hrest, hparen, hg, hq, hspace⟩ := (h.suffix hsuffix).glued hends
  have hword : IsWord isWhitespace (source named ++ g) := hsolid.append hg
  refine ⟨uppercase (source named ++ g), upperWords q, ?_, ?_, fun hs => by rw [hspace hs]⟩
  · rw [upperWords, h.words_skip, hskip, source_append, hrest, ← List.append_assoc,
      hword.words_append hq]
    rfl
  · have hname : ∀ c ∈ uppercase (source named), decide (c ≠ '(') = true := by
      intro c hc
      obtain ⟨d, hd, rfl⟩ := List.mem_map.mp hc
      exact decide_eq_true (hin d hd).toUpper
    have hglue : (uppercase g).takeWhile (· ≠ '(') = [] := by
      cases g with
      | nil => rfl
      | cons c g =>
          have hc : c = '(' := by
            by_contra hne
            simp [hne] at hparen
          rw [hc]
          rfl
    have hupper : uppercase (source named ++ g) = uppercase (source named) ++ uppercase g :=
      List.map_append
    rw [nameText_tableName, hupper, List.takeWhile_append_of_pos hname, hglue, List.append_nil]

theorem Clean.wordName {name : Name} (h : Clean ts) (hn : wordName ts = some (name, rest)) :
    NameWord ts name rest := by
  have hskipped := h.suffix (skip_suffix ts)
  have hsuffix := skip_suffix ts
  unfold Schema.wordName at hn
  split_ifs at hn
  split at hn
  · rename_i t u rest' hskip
    split_ifs at hn with hends
    obtain ⟨a, ha, hn⟩ := Option.bind_eq_some_iff.mp hn
    obtain ⟨b, hb, hn⟩ := Option.map_eq_some_iff.mp hn
    obtain ⟨rfl, rfl⟩ := Prod.mk.inj hn
    rw [hskip] at hskipped hsuffix
    have ht := hskipped.spells ha
    have hu := (hskipped.suffix (List.suffix_append [t, .symbol '.'] (u :: rest'))).spells hb
    have hsource : source [t, .symbol '.', u] = t.source ++ '.' :: u.source := by
      simp [Lexeme.source]
    have hpoint : ∀ c ∈ '.' :: u.source, isWhitespace c = false :=
      List.forall_mem_cons.mpr ⟨by decide, hu.isWord.solid⟩
    have hin : ∀ c ∈ source [t, .symbol '.', u], InName c := by
      rw [hsource]
      intro c hc
      rcases List.mem_append.mp hc with hc | hc
      · exact ht.inName c hc
      · rcases List.mem_cons.mp hc with rfl | hc
        · exact .inr (by decide)
        · exact hu.inName c hc
    have hnamed := h.nameWord [t, .symbol '.', u] hskip hends
      (hsource ▸ ht.isWord.append hpoint) hin
    have hkept : (uppercase (source [t, .symbol '.', u])).filter isNameChar = a ++ '.' :: b := by
      rw [hsource, uppercase, List.map_append, List.map_cons, List.filter_append,
        List.filter_cons_of_pos (by decide)]
      show (uppercase t.source).filter isNameChar ++ '.' :: (uppercase u.source).filter isNameChar = _
      rw [ht.kept, hu.kept]
    rw [hkept] at hnamed
    refine ⟨?_, (List.suffix_append [t, .symbol '.', u] rest').trans hsuffix, ⟨?_, hu.plain⟩, hnamed⟩
    · simp only [Sql.tableName, hskip, skip_of_head (show (Lexeme.symbol '.').isSpace = false from rfl),
        skip_of_head hu.notSpace, ht.name_eq, hu.name_eq]
      rfl
    · rintro _ ⟨⟩
      exact ht.plain
  · rename_i t rest' hnot hskip
    split_ifs at hn with hends
    obtain ⟨a, ha, hn⟩ := Option.map_eq_some_iff.mp hn
    obtain ⟨rfl, rfl⟩ := Prod.mk.inj hn
    rw [hskip] at hskipped hsuffix
    have ht := hskipped.spells ha
    have hsource : source [t] = t.source := by simp
    have hnamed := h.nameWord [t] hskip hends.1 (hsource ▸ ht.isWord)
      (hsource ▸ ht.inName)
    rw [hsource, ht.kept] at hnamed
    refine ⟨?_, (List.suffix_cons t rest').trans hsuffix, ⟨nofun, ht.plain⟩, hnamed⟩
    simp only [Sql.tableName, hskip]
    split
    · rename_i behind hpoint
      exact absurd (by rw [hpoint]; rfl) hends.2
    · rw [ht.name_eq]
      rfl
  · cases hn

end Dagq.Schema
