/-
# Dagq.Store.SchemaForms -- a statement the checker allows is of a documented form.

Statement by statement, where the checker sees the tokens as they are: the words of each pattern are
SQLite's keywords, and the key the checker compares keeps the name SQLite reads.
-/
import Dagq.Store.SchemaWords

namespace Dagq.Schema

open Lib Sql

variable {ts rest : List Lexeme} {key w : List Char} {ws : List (List Char)}
  {existing : Name → Bool} {keys : List (List Char)} {names : List Name}

/-! ## Names -/

theorem nameBehind_eq {ks : List String} {l : List (List Char)} :
    nameBehind ks l = some w ↔ ∃ ws, l = ks.map String.toList ++ w :: ws := by
  rw [nameBehind, Option.bind_eq_some_iff]
  constructor
  · rintro ⟨r, hr, hhead⟩
    obtain ⟨ws, rfl⟩ := List.head?_eq_some_iff.mp hhead
    exact ⟨ws, behind_eq.mp hr⟩
  · rintro ⟨ws, hl⟩
    exact ⟨w :: ws, behind_eq.mpr hl, rfl⟩

theorem Clean.breaks_of_head (h : Clean ts) (hs : ts.head?.any Lexeme.isSpace = true) :
    Breaks isWhitespace (source ts) := by
  cases ts with
  | nil => cases hs
  | cons t ts =>
      have hblank := h.blank_of_space hs
      obtain ⟨c, cs, hsource⟩ :=
        List.exists_cons_of_ne_nil (h.apart.valid t List.mem_cons_self).source_ne_nil
      rw [source_cons, hsource]
      exact .cons (hblank c (hsource ▸ List.mem_cons_self)) _

theorem head_of_isNamed (h : isNamed ts = true) : ts.head?.any Lexeme.isSpace = true := by
  by_contra hs
  rw [isNamed, wordName, if_pos (Bool.eq_false_iff.mpr hs)] at h
  cases h

/-- The name at a place where the checker has a word. -/
theorem Clean.named (h : Clean ts) (hn : isNamed ts = true) :
    ∃ name rest, Schema.wordName ts = some (name, rest) ∧ NameWord ts name rest := by
  obtain ⟨⟨name, rest⟩, hname⟩ := Option.isSome_iff_exists.mp hn
  exact ⟨name, rest, hname, h.wordName hname⟩

theorem NameWord.keeps {name : Name} (h : NameWord ts name rest)
    (hw : upperWords (source ts) = w :: ws) : nameText (tableName w) = textOf name := by
  obtain ⟨v, vs, hv, hkey, _⟩ := h.word
  rw [hw, List.cons.injEq] at hv
  rw [hv.1]
  exact hkey

/-- Every key of the checker keeps a name. -/
def KeyOf (key : List Char) (name : Name) : Prop := IsPlainName name ∧ nameText key = textOf name

def Keeps (keys : List (List Char)) (names : List Name) : Prop :=
  ∀ key ∈ keys, ∃ name ∈ names, KeyOf key name

theorem Keeps.mem {name : Name} (h : Keeps keys names) (hmem : key ∈ keys) (hkey : KeyOf key name) :
    name ∈ names := by
  obtain ⟨other, hother, hplain, htext⟩ := h key hmem
  rwa [textOf_inj hkey.1 hplain (hkey.2.symm.trans htext)]

/-! ## Tables -/

theorem Clean.newTable {name : Name} (hname : Sql.tableName ts = some (name, rest))
    (hnot : afterWords ["IF", "NOT", "EXISTS"] ts = none) : newTable ts = some (false, name) := by
  rw [Schema.newTable, hnot]
  dsimp only
  rw [hname]
  rfl

/-- A `CREATE TABLE` with a name behind it. -/
theorem Clean.creates_plain (h : Clean ts)
    (hp : (afterWords ["IF", "NOT", "EXISTS"] ts).isNone = true → isNamed ts = true)
    (hp' : ∀ rest, afterWords ["IF", "NOT", "EXISTS"] ts = some rest → isNamed rest = true)
    (hnot : nameBehind ["IF", "NOT", "EXISTS"] (upperWords (source ts)) = none)
    (hw : upperWords (source ts) = w :: ws) :
    ∃ name, Schema.newTable ts = some (false, name) ∧ KeyOf (tableName w) name := by
  cases hif : afterWords ["IF", "NOT", "EXISTS"] ts with
  | none =>
      obtain ⟨name, rest, _, hname⟩ := h.named (hp (by rw [hif]; rfl))
      exact ⟨name, Clean.newTable hname.tableName_eq hif, hname.plain, hname.keeps hw⟩
  | some rest =>
      -- The checker would have seen the words too.
      have hnamed := hp' rest hif
      have hrest := h.suffix (afterWords_suffix hif)
      have hwords := h.words_of_afterWords hif (hrest.breaks_of_head (head_of_isNamed hnamed))
      obtain ⟨_, _, _, hname⟩ := hrest.named hnamed
      obtain ⟨v, vs, hv, _⟩ := hname.word
      rw [hv] at hwords
      rw [nameBehind_eq.mpr ⟨vs, hwords⟩] at hnot
      cases hnot

theorem nameBehind_append (ks : List String) {ls : List String} {l : List (List Char)} :
    nameBehind (ks ++ ls) (ks.map String.toList ++ l) = nameBehind ls l := by
  have hsome : ∀ v, nameBehind (ks ++ ls) (ks.map String.toList ++ l) = some v ↔
      nameBehind ls l = some v := by
    intro v
    rw [nameBehind_eq, nameBehind_eq, List.map_append]
    simp only [List.append_assoc, List.append_cancel_left_eq]
  exact Option.ext hsome

/-- A table the checker sees created is created, new, under a name its key keeps. -/
theorem Clean.creates (h : Clean ts) (hp : isPlainCommand existing ts = true)
    (hkey : createdTable (upperWords (source ts)) = some key) :
    ∃ ifNotExists name, createsTable ts = some (ifNotExists, name) ∧ KeyOf key name ∧
      (ifNotExists = true → existing name = false) := by
  simp only [isPlainCommand, Bool.and_eq_true] at hp
  obtain ⟨⟨⟨⟨htable, hvirtual⟩, -⟩, -⟩, -⟩ := hp
  obtain ⟨w, hw, rfl⟩ := Option.map_eq_some_iff.mp hkey
  by_cases hfive : nameBehind ["CREATE", "TABLE", "IF", "NOT", "EXISTS"] (upperWords (source ts)) = none
  · rw [hfive, Option.none_or] at hw
    by_cases htwo : nameBehind ["CREATE", "TABLE"] (upperWords (source ts)) = none
    · rw [htwo, Option.none_or] at hw
      obtain ⟨ws, hws⟩ := nameBehind_eq.mp hw
      obtain ⟨rest, hrest, hwords, _⟩ := h.afterWords_of_words (by decide) hws
      rw [hrest, Option.all_some, Bool.and_eq_true, Option.isNone_iff_eq_none] at hvirtual
      obtain ⟨name, _, _, hname⟩ := (h.suffix (afterWords_suffix hrest)).named hvirtual.2
      have hnone : afterWords ["CREATE", "TABLE"] ts = none := by
        by_contra hsome
        have hsame := afterWords_second (Option.isSome_iff_ne_none.mpr hsome) (Option.isSome_of_eq_some hrest)
        revert hsame
        decide
      refine ⟨false, name, ?_, ⟨hname.plain, hname.keeps hwords⟩, nofun⟩
      rw [createsTable, hnone, Option.none_or, hrest]
      exact Clean.newTable hname.tableName_eq hvirtual.1
    · obtain ⟨v, hv⟩ := Option.ne_none_iff_exists'.mp htwo
      rw [hv, Option.some_or, Option.some.injEq] at hw
      subst hw
      obtain ⟨ws, hws⟩ := nameBehind_eq.mp hv
      obtain ⟨rest, hrest, hwords, _⟩ := h.afterWords_of_words (by decide) hws
      rw [hrest, Option.all_some] at htable
      have hbehind : nameBehind ["IF", "NOT", "EXISTS"] (upperWords (source rest)) = none := by
        rw [← nameBehind_append ["CREATE", "TABLE"], hwords, ← hws]
        exact hfive
      obtain ⟨name, hnew, hname⟩ := (h.suffix (afterWords_suffix hrest)).creates_plain
        (fun hnone => by
          rw [Option.isNone_iff_eq_none.mp hnone] at htable
          exact htable)
        (fun r hr => by
          rw [hr] at htable
          obtain ⟨⟨_, _⟩, hn, _⟩ := (Option.any_eq_true _ _).mp htable
          rw [isNamed, hn]
          rfl) hbehind hwords
      refine ⟨false, name, ?_, hname, nofun⟩
      rw [createsTable, hrest, Option.some_or]
      exact hnew
  · obtain ⟨v, hv⟩ := Option.ne_none_iff_exists'.mp hfive
    rw [hv, Option.some_or, Option.some.injEq] at hw
    subst hw
    obtain ⟨ws, hws⟩ := nameBehind_eq.mp hv
    obtain ⟨rest, hrest, hwords, _⟩ := h.afterWords_of_words (by decide) hws
    have hsplit := afterWords_append ["CREATE", "TABLE"] ["IF", "NOT", "EXISTS"] ts
    obtain ⟨r, hr, hif⟩ := Option.bind_eq_some_iff.mp (hsplit.symm.trans hrest)
    rw [hr, Option.all_some, hif] at htable
    obtain ⟨⟨name, r'⟩, hn, hnew⟩ := (Option.any_eq_true _ _).mp htable
    have hname := (h.suffix (afterWords_suffix hrest)).wordName hn
    refine ⟨true, name, ?_, ⟨hname.plain, hname.keeps hwords⟩, fun _ => by simpa using hnew⟩
    rw [createsTable, hr, Option.some_or]
    show Schema.newTable r = _
    rw [Schema.newTable, hif]
    dsimp only
    rw [hname.tableName_eq]
    rfl

/-! ## Writes -/

/-- The conflict clause is one word, and the checker sees what is behind it. -/
theorem Clean.plainOr (h : Clean ts) (hp : isPlainOr ts = true) : ∃ v rest body,
    skip ts = .word v :: rest ∧ afterWords ["INTO"] rest = some body ∧ isNamed body = true ∧
      body <:+ ts ∧ (upperWords (source ts)).tail = "INTO".toList :: upperWords (source body) := by
  unfold isPlainOr at hp
  split at hp
  · rename_i v rest hskip
    obtain ⟨body, hbody, hnamed⟩ := (Option.any_eq_true _ _).mp hp
    have hskipped := h.suffix (skip_suffix ts)
    have hsuffix := skip_suffix ts
    rw [hskip] at hskipped hsuffix
    have hrest := hskipped.suffix (List.suffix_cons _ _)
    have hbehind := hrest.suffix (afterWords_suffix hbody)
    have hwords := hrest.words_of_afterWords hbody (hbehind.breaks_of_head (head_of_isNamed hnamed))
    have hword := hskipped.isWord
    refine ⟨v, rest, body, hskip, hbody, hnamed,
      ((afterWords_suffix hbody).trans (List.suffix_cons _ _)).trans hsuffix, ?_⟩
    rw [upperWords, h.words_skip, hskip, source_cons]
    show ((words isWhitespace (v ++ source rest)).map uppercase).tail = _
    rw [hword.words_append (hskipped.breaks_of_afterWords (by rw [hbody]; rfl)), List.map_cons,
      List.tail_cons]
    exact hwords
  · cases hp

/-- An insert the checker sees goes into a table whose name its key keeps. -/
theorem Clean.inserts (h : Clean ts) (hp : (afterWords ["INSERT", "INTO"] ts).all isNamed = true)
    (hp' : (afterWords ["INSERT", "OR"] ts).all isPlainOr = true)
    (hkey : insertTarget (upperWords (source ts)) = some key) :
    ∃ body name rest, insertBody ts = some body ∧ Sql.tableName body = some (name, rest) ∧
      KeyOf key name := by
  obtain ⟨w, hw, rfl⟩ := Option.map_eq_some_iff.mp hkey
  rcases Option.or_eq_some_iff.mp hw with hinto | ⟨hnone, hor⟩
  · obtain ⟨ws, hws⟩ := nameBehind_eq.mp hinto
    obtain ⟨body, hbody, hwords, _⟩ := h.afterWords_of_words (by decide) hws
    rw [hbody, Option.all_some] at hp
    obtain ⟨name, rest, _, hname⟩ := (h.suffix (afterWords_suffix hbody)).named hp
    refine ⟨body, name, rest, ?_, hname.tableName_eq, hname.plain, hname.keeps hwords⟩
    rw [insertBody, hbody, Option.some_or]
  · obtain ⟨r, hr, hinto⟩ := Option.bind_eq_some_iff.mp hor
    obtain ⟨ws, hws⟩ := nameBehind_eq.mp hinto
    obtain ⟨rest, hrest, hwords, _⟩ := h.afterWords_of_words (by decide) (behind_eq.mp hr)
    rw [hrest, Option.all_some] at hp'
    have hclean := h.suffix (afterWords_suffix hrest)
    obtain ⟨v, behind, body, hskip, hbody, hnamed, hsuffix, htail⟩ := hclean.plainOr hp'
    rw [hwords, hws] at htail
    obtain ⟨name, rest', _, hname⟩ := (hclean.suffix hsuffix).named hnamed
    refine ⟨body, name, rest', ?_, hname.tableName_eq, hname.plain,
      hname.keeps (List.cons.inj htail).2.symm⟩
    have hno : afterWords ["INSERT", "INTO"] ts = none := by
      by_contra hsome
      have hsame := afterWords_second (Option.isSome_iff_ne_none.mpr hsome) (Option.isSome_of_eq_some hrest)
      revert hsame
      decide
    rw [insertBody, hno, Option.none_or, hrest, Option.bind_some, hskip]
    exact hbody

/-- A write of a trigger that the checker sees writes a table whose name its key keeps. -/
theorem Clean.writes (h : Clean ts) (hp : isPlainWrite ts = true)
    (hkey : writeTarget (upperWords (source ts)) = some key) :
    ∃ name, Schema.writes ts = some name ∧ KeyOf key name := by
  simp only [isPlainWrite, Bool.and_eq_true] at hp
  obtain ⟨⟨⟨hinto, hor⟩, hupdate⟩, hdelete⟩ := hp
  rcases Option.or_eq_some_iff.mp hkey with hinsert | ⟨hnone, hkey⟩
  · obtain ⟨body, name, rest, hbody, hname, hkept⟩ := h.inserts hinto hor hinsert
    refine ⟨name, ?_, hkept⟩
    rw [Schema.writes, hbody, Option.some_or, Option.bind_some, hname]
    rfl
  · obtain ⟨w, hw, rfl⟩ := Option.map_eq_some_iff.mp hkey
    have hno {k : String} {ks : List String} (hsome : (afterWords (k :: ks) ts).isSome)
        (hne : k ≠ "INSERT") : insertBody ts = none := by
      have hother : ∀ l, afterWords ["INSERT", l] ts = none := fun l => by
        by_contra hinsert
        exact hne (afterWords_head hsome (Option.isSome_iff_ne_none.mpr hinsert))
      rw [insertBody, hother, hother]
      rfl
    rcases Option.or_eq_some_iff.mp hw with hup | ⟨_, hdel⟩
    · obtain ⟨ws, hws⟩ := nameBehind_eq.mp hup
      obtain ⟨body, hbody, hwords, _⟩ := h.afterWords_of_words (by decide) hws
      rw [hbody, Option.all_some, Bool.and_eq_true, Option.isNone_iff_eq_none] at hupdate
      obtain ⟨name, rest, _, hname⟩ := (h.suffix (afterWords_suffix hbody)).named hupdate.2
      refine ⟨name, ?_, hname.plain, hname.keeps hwords⟩
      have hbodyEq : updateBody ts = some body := by
        rw [updateBody, hbody, Option.bind_some, hupdate.1]
      rw [Schema.writes, hno (by rw [hbody]; rfl) (by decide), Option.none_or, hbodyEq, Option.some_or,
        Option.bind_some, hname.tableName_eq]
      rfl
    · obtain ⟨ws, hws⟩ := nameBehind_eq.mp hdel
      obtain ⟨body, hbody, hwords, _⟩ := h.afterWords_of_words (by decide) hws
      rw [hbody, Option.all_some] at hdelete
      obtain ⟨name, rest, _, hname⟩ := (h.suffix (afterWords_suffix hbody)).named hdelete
      refine ⟨name, ?_, hname.plain, hname.keeps hwords⟩
      have hupdateNone : updateBody ts = none := by
        have hnone : afterWords ["UPDATE"] ts = none := by
          by_contra hsome
          have hsame := afterWords_head (Option.isSome_iff_ne_none.mpr hsome)
            (Option.isSome_of_eq_some hbody)
          revert hsame
          decide
        rw [updateBody, hnone]
        rfl
      rw [Schema.writes, hno (by rw [hbody]; rfl) (by decide), Option.none_or, hupdateNone,
        Option.none_or, hbody, Option.bind_some, hname.tableName_eq]
      rfl

/-! ## Columns -/

theorem contains_iff {part : String} {text : List Char} :
    contains part text = true ↔ part.toList <:+: text := by
  rw [contains, List.any_eq_true, List.infix_iff_prefix_suffix]
  simp only [List.mem_tails, List.isPrefixOf_iff_prefix]
  exact exists_congr fun _ => and_comm

theorem join_cons_cons {u v : List Char} {l : List (List Char)} :
    join (u :: v :: l) = u ++ ' ' :: join (v :: l) := by
  rw [join, List.intercalate_cons_cons]
  simp [join]

theorem join_suffix (w : List Char) (l : List (List Char)) : join l <:+ join (w :: l) := by
  cases l with
  | nil => exact List.nil_suffix
  | cons v l =>
      rw [join_cons_cons]
      exact (List.suffix_cons ' ' _).trans (List.suffix_append w _)

theorem join_within {a b x y : List Char} (xs ys : List (List Char)) (ha : x <:+ a) (hb : y <+: b) :
    x ++ ' ' :: y <:+: join (xs ++ a :: b :: ys) := by
  induction xs with
  | nil =>
      obtain ⟨s, rfl⟩ := ha
      obtain ⟨t, rfl⟩ := hb
      have htail : ∃ more, join ((y ++ t) :: ys) = y ++ more := by
        cases ys with
        | nil => exact ⟨t, by simp [join]⟩
        | cons v ys => exact ⟨t ++ ' ' :: join (v :: ys), by rw [join_cons_cons, List.append_assoc]⟩
      obtain ⟨more, hmore⟩ := htail
      refine ⟨s, more, ?_⟩
      rw [List.nil_append, join_cons_cons, hmore]
      simp
  | cons v xs ih => exact ih.trans (join_suffix v _).isInfix

/-- A definition that says `NOT NULL` says so to the checker. -/
theorem Clean.notNull (h : Clean ts) (hn : isNotNull ts = true) :
    ∃ xs a b ys, upperWords (source ts) = xs ++ a :: b :: ys ∧ "NOT".toList <:+ a ∧
      "NULL".toList <+: b := by
  obtain ⟨tail, htail, hsome⟩ := List.any_eq_true.mp hn
  have hsuffix : tail <:+ ts := (List.mem_tails _ _).mp htail
  obtain ⟨before, rfl⟩ := hsuffix
  have hclean := h.suffix (List.suffix_append before tail)
  obtain ⟨rest, hrest⟩ := Option.isSome_iff_exists.mp hsome
  obtain ⟨n, r, hskip, hnot, hr⟩ := afterWords_cons.mp hrest
  obtain ⟨m, r', hskip', hnull, _⟩ := afterWords_cons.mp hr
  have hcut : source tail = source (tail.takeWhile Lexeme.isSpace) ++ (n ++ source r) := by
    have hsplit : tail = tail.takeWhile Lexeme.isSpace ++ skip tail :=
      List.takeWhile_append_dropWhile.symm
    rw [hskip] at hsplit
    conv_lhs => rw [hsplit]
    rw [source_append, source_cons]
    rfl
  have hword : Clean (.word n :: r) := hskip ▸ hclean.suffix (skip_suffix tail)
  have hrest := hword.suffix (List.suffix_cons _ r)
  have hword' : Clean (.word m :: r') := hskip' ▸ hrest.suffix (skip_suffix r)
  have hN : IsWord isWhitespace n := hword.isWord
  have hM : IsWord isWhitespace m := hword'.isWord
  -- There is a blank between the two words.
  have hbreaks := hword.breaks_of_afterWords (Option.isSome_of_eq_some hr)
  obtain ⟨b, more, hb⟩ : ∃ b more, source r = b :: more := by
    refine List.exists_cons_of_ne_nil fun hnil => ?_
    have hwords := hrest.words_skip
    rw [hnil, hskip', source_cons] at hwords
    obtain ⟨w, ws, hfirst, _⟩ := hM.words_first (source r')
    exact absurd (hwords.trans hfirst) nofun
  have hblank : isWhitespace b = true := hbreaks b (by rw [hb]; rfl)
  obtain ⟨xs, a, hlast, ha⟩ := hN.words_last (source before ++ source (tail.takeWhile Lexeme.isSpace))
  obtain ⟨c, ys, hfirst, hc⟩ := hM.words_first (source r')
  refine ⟨xs.map uppercase, uppercase a, uppercase c, ys.map uppercase, ?_, ?_, ?_⟩
  · have htail : words isWhitespace more = c :: ys := by
      rw [← words_cons hblank, ← hb, hrest.words_skip, hskip', source_cons]
      exact hfirst
    have htext : source (before ++ tail) =
        (source before ++ source (tail.takeWhile Lexeme.isSpace) ++ n) ++ b :: more := by
      rw [source_append, hcut, hb]
      simp only [List.append_assoc]
    rw [upperWords, htext, words_append_cons hblank, hlast, htail]
    simp
  · rw [← hnot]
    exact ha.map _
  · rw [← hnull]
    exact hc.map _

/-- What the checker strips of a definition does not hide `NOT NULL` from it, nor brings in `DEFAULT`. -/
theorem stripped_column {r xs ys : List (List Char)} {a b : List Char} (hr : r = xs ++ a :: b :: ys)
    (ha : "NOT".toList <:+ a) (hb : "NULL".toList <+: b) (hmay : mayAddColumn r = true) :
    contains "DEFAULT" (join r) = true := by
  unfold mayAddColumn at hmay
  rw [Bool.or_eq_true, Bool.not_eq_true'] at hmay
  cases hcolumn : behind ["COLUMN"] r with
  | none =>
      rw [hcolumn, Option.getD_none] at hmay
      have hnull : contains "NOT NULL" (join r) = true :=
        contains_iff.mpr (hr ▸ join_within xs ys ha hb)
      exact hmay.resolve_left (by rw [hnull]; exact Bool.noConfusion)
  | some s =>
      rw [hcolumn, Option.getD_some] at hmay
      have hs : r = "COLUMN".toList :: s := behind_eq.mp hcolumn
      have hnull : contains "NOT NULL" (join s) = true := by
        rw [hr] at hs
        cases xs with
        | nil =>
            rw [List.nil_append, List.cons.injEq] at hs
            rw [hs.1] at ha
            exact absurd ha (by decide)
        | cons x xs =>
            rw [List.cons_append, List.cons.injEq] at hs
            exact contains_iff.mpr (hs.2 ▸ join_within xs ys ha hb)
      have hdefault := hmay.resolve_left (by rw [hnull]; exact Bool.noConfusion)
      rw [hs]
      exact contains_iff.mpr ((contains_iff.mp hdefault).trans (join_suffix _ s).isInfix)

/-- A column the checker lets through may be left out. -/
theorem Clean.addsColumn {r : List (List Char)} (h : Clean ts)
    (hp : isPlainCommand existing ts = true)
    (halter : (behind ["ALTER", "TABLE"] (upperWords (source ts))).bind (behind ["ADD"] ·.tail) = some r)
    (hmay : mayAddColumn r = true) : ∃ definition, Schema.addsColumn ts = some definition ∧
      (isNotNull definition = true → hasDefault definition = true) := by
  simp only [isPlainCommand, Bool.and_eq_true] at hp
  obtain ⟨⟨⟨_, hp⟩, -⟩, -⟩ := hp
  obtain ⟨ws, hws, hadd⟩ := Option.bind_eq_some_iff.mp halter
  obtain ⟨behindTable, hbehind, hwords, _⟩ := h.afterWords_of_words (by decide) (behind_eq.mp hws)
  rw [hbehind, Option.all_some] at hp
  obtain ⟨⟨name, behindName⟩, hname, hp⟩ := (Option.any_eq_true _ _).mp hp
  rw [Bool.and_eq_true] at hp
  have hclean := h.suffix (afterWords_suffix hbehind)
  have hnamed := hclean.wordName hname
  obtain ⟨w, vs, hw, _, hvs⟩ := hnamed.word
  have hrest : upperWords (source behindName) = ["ADD"].map String.toList ++ r := by
    rw [← hvs hp.1, ← behind_eq.mp hadd, ← hwords, hw, List.tail_cons]
  have hcleanName := hclean.suffix hnamed.suffix
  obtain ⟨definition, hdefinition, hr, _⟩ := hcleanName.afterWords_of_words (by decide) hrest
  refine ⟨definition, ?_, fun hnull => ?_⟩
  · rw [Schema.addsColumn, hbehind, Option.bind_some, hnamed.tableName_eq, Option.bind_some]
    exact hdefinition
  · obtain ⟨xs, a, b, ys, hsplit, ha, hb⟩ :=
      (hcleanName.suffix (afterWords_suffix hdefinition)).notNull hnull
    have hplain := hp.2
    rw [hdefinition, Option.all_some, isPlainColumn, hnull, hr,
      stripped_column (hr.symm.trans hsplit) ha hb hmay] at hplain
    exact hplain

/-! ## A statement that is no trigger -/

/-- What a trigger may begin with. -/
theorem trigger_heads : ∀ words ∈ triggerWords ++ triggerWords.map ("EXPLAIN" :: ·) ++
    triggerWords.map (["EXPLAIN", "QUERY", "PLAN"] ++ ·),
    words.head?.any (["CREATE", "EXPLAIN"].contains ·) = true ∧
      words[1]?.any (["TRIGGER", "TEMP", "TEMPORARY", "QUERY", "CREATE"].contains ·) = true := by
  decide

theorem isTrigger_of_first {k : String} {ks : List String} (h : (afterWords (k :: ks) ts).isSome)
    (hk : ["CREATE", "EXPLAIN"].contains k = false) : isTrigger ts = false := by
  refine Bool.eq_false_iff.mpr fun htrigger => ?_
  obtain ⟨words, hwords, hsome⟩ := List.any_eq_true.mp htrigger
  have hheads := (trigger_heads words hwords).1
  cases words with
  | nil => cases hheads
  | cons k' ks' =>
      rw [List.head?_cons, Option.any_some, ← afterWords_head h hsome, hk] at hheads
      cases hheads

theorem isTrigger_of_second {k l : String} {ks : List String} (h : (afterWords (k :: l :: ks) ts).isSome)
    (hl : ["TRIGGER", "TEMP", "TEMPORARY", "QUERY", "CREATE"].contains l = false) :
    isTrigger ts = false := by
  refine Bool.eq_false_iff.mpr fun htrigger => ?_
  obtain ⟨words, hwords, hsome⟩ := List.any_eq_true.mp htrigger
  have hheads := (trigger_heads words hwords).2
  match words, hheads, hsome with
  | k' :: l' :: ks', hheads, hsome =>
      have hsecond : ["TRIGGER", "TEMP", "TEMPORARY", "QUERY", "CREATE"].contains l' = true := hheads
      rw [← afterWords_second h hsome, hl] at hsecond
      cases hsecond

theorem Clean.isBlank (h : Clean ts) (hw : words isWhitespace (source ts) = []) : isBlank ts = true := by
  rw [Schema.isBlank, List.all_eq_true]
  intro t ht
  by_contra hs
  obtain ⟨before, behind, rfl⟩ := List.append_of_mem ht
  obtain ⟨c, cs, hsource, hc, _⟩ := (h.suffix (List.suffix_append before _)).solid
    (Bool.eq_false_iff.mpr hs)
  have hblank := words_eq_nil_iff.mp hw c (by
    rw [source_append, source_cons, hsource]
    exact List.mem_append_right _ List.mem_cons_self)
  rw [hc] at hblank
  cases hblank

theorem isTrigger_of_isBlank (h : Schema.isBlank ts = true) : isTrigger ts = false := by
  have hskip : skip ts = [] := List.dropWhile_eq_nil_iff.mpr (List.all_eq_true.mp h)
  have hnone : ∀ k ks, (afterWords (k :: ks) ts).isSome = false := by
    intro k ks
    rw [afterWords, hskip]
    rfl
  refine Bool.eq_false_iff.mpr fun htrigger => ?_
  obtain ⟨words, hwords, hsome⟩ := List.any_eq_true.mp htrigger
  cases words with
  | nil => cases (trigger_heads [] hwords).1
  | cons k ks =>
      rw [hnone k ks] at hsome
      cases hsome

/-- A statement the checker lets through as no trigger is none to SQLite. -/
theorem Clean.isTrigger (h : Clean ts)
    (hnot : behind ["CREATE", "TRIGGER"] (upperWords (source ts)) = none)
    (hallowed : isAllowed keys (upperWords (source ts)) = true) : isTrigger ts = false := by
  have hsome {ks : List String} {r : List (List Char)} (hks : areWords ks = true)
      (hbehind : behind ks (upperWords (source ts)) = some r) : (afterWords ks ts).isSome := by
    obtain ⟨rest, hrest, _⟩ := h.afterWords_of_words hks (behind_eq.mp hbehind)
    exact Option.isSome_of_eq_some hrest
  unfold isAllowed at hallowed
  split_ifs at hallowed with htable htrigger hindex
  · obtain ⟨key, hkey⟩ := Option.isSome_iff_exists.mp htable
    obtain ⟨w, hw, -⟩ := Option.map_eq_some_iff.mp hkey
    rcases Option.or_eq_some_iff.mp hw with hfive | ⟨-, hw⟩
    · obtain ⟨r, hr, -⟩ := Option.bind_eq_some_iff.mp hfive
      exact isTrigger_of_second (hsome (by decide) hr) (by decide)
    · rcases Option.or_eq_some_iff.mp hw with htwo | ⟨-, hthree⟩
      · obtain ⟨r, hr, -⟩ := Option.bind_eq_some_iff.mp htwo
        exact isTrigger_of_second (hsome (by decide) hr) (by decide)
      · obtain ⟨r, hr, -⟩ := Option.bind_eq_some_iff.mp hthree
        exact isTrigger_of_second (hsome (by decide) hr) (by decide)
  · rw [hnot] at htrigger
    cases htrigger
  · obtain ⟨r, hr⟩ := Option.isSome_iff_exists.mp hindex
    exact isTrigger_of_second (hsome (by decide) hr) (by decide)
  · split at hallowed
    · rename_i halter
      obtain ⟨r, hr, -⟩ := Option.bind_eq_some_iff.mp halter
      exact isTrigger_of_first (hsome (by decide) hr) (by decide)
    · obtain ⟨key, hkey, -⟩ := (Option.any_eq_true _ _).mp hallowed
      obtain ⟨w, hw, -⟩ := Option.map_eq_some_iff.mp hkey
      rcases Option.or_eq_some_iff.mp hw with hinto | ⟨-, hor⟩
      · obtain ⟨r, hr, -⟩ := Option.bind_eq_some_iff.mp hinto
        exact isTrigger_of_first (hsome (by decide) hr) (by decide)
      · obtain ⟨r, hr, -⟩ := Option.bind_eq_some_iff.mp hor
        exact isTrigger_of_first (hsome (by decide) hr) (by decide)

/-- A statement the checker lets through as no trigger is of a documented form. -/
theorem Clean.documented (h : Clean ts) (hp : isPlainCommand existing ts = true)
    (hkeeps : Keeps keys names) (hnot : behind ["CREATE", "TRIGGER"] (upperWords (source ts)) = none)
    (hallowed : isAllowed keys (upperWords (source ts)) = true) :
    Documented existing names (.plain ts) := by
  unfold isAllowed at hallowed
  split_ifs at hallowed with htable htrigger hindex
  · obtain ⟨key, hkey⟩ := Option.isSome_iff_exists.mp htable
    obtain ⟨ifNotExists, name, hcreates, _, hnew⟩ := h.creates hp hkey
    exact .table hcreates hnew
  · rw [hnot] at htrigger
    cases htrigger
  · obtain ⟨ws, hws⟩ := Option.isSome_iff_exists.mp hindex
    obtain ⟨rest, hrest, _⟩ := h.afterWords_of_words (by decide) (behind_eq.mp hws)
    exact .index (Option.isSome_of_eq_some hrest)
  · split at hallowed
    · rename_i r halter
      obtain ⟨definition, hdefinition, hdefault⟩ := h.addsColumn hp halter hallowed
      exact .column hdefinition hdefault
    · obtain ⟨key, hkey, hmem⟩ := (Option.any_eq_true _ _).mp hallowed
      simp only [isPlainCommand, Bool.and_eq_true] at hp
      obtain ⟨body, name, rest, hbody, hname, hkept⟩ := h.inserts hp.1.2 hp.2 hkey
      refine .insert ?_ (hkeeps.mem (by simpa using hmem) hkept)
      rw [insertsInto, hbody, Option.bind_some, hname]
      rfl

end Dagq.Schema
