/-
# Dagq.Store.SchemaSound -- a text the checker accepts only adds, where it reads it as SQLite does.

Segment by segment: what the checker has created so far keeps the names of the tables SQLite has, and a
trigger that has begun for the one has begun for the other.
-/
import Dagq.Store.SchemaText

namespace Dagq.Schema

open Lib Sql

variable {existing : Name → Bool} {ts : List Lexeme} {names : List Name}

/-! ## Segments -/

theorem Clean.part {part : List Lexeme} (h : Clean ts) (hpart : part <:+: ts) : Clean part :=
  ⟨⟨fun t ht => h.apart.valid t (hpart.subset ht),  List.IsChain.infix h.apart.chain hpart⟩,
    fun t ht => h.plain t (hpart.subset ht), fun t ht => h.code t (hpart.subset ht)⟩

theorem splitOn_append {u : List Char} (h : ';' ∉ u) (v : List Char) : ∃ c cs,
    v.splitOn ';' = c :: cs ∧ (u ++ v).splitOn ';' = (u ++ c) :: cs := by
  induction u with
  | nil =>
      obtain ⟨c, cs, hcs⟩ := List.exists_cons_of_ne_nil (List.splitOn_ne_nil ';' v)
      exact ⟨c, cs, hcs, hcs⟩
  | cons a u ih =>
      obtain ⟨c, cs, hcs, hu⟩ := ih (mt (List.mem_cons_of_mem a) h)
      have hne : a ≠ ';' := fun heq => h (heq ▸ List.mem_cons_self)
      obtain ⟨d, ds, hds, hcons⟩ := splitOn_cons_of_ne hne (u ++ v)
      rw [hu] at hds
      cases hds
      exact ⟨c, cs, hcs, hcons⟩

/-- The semicolons of the text are those between the segments. -/
theorem Clean.splitOn_source (h : Clean ts) :
    (source ts).splitOn ';' = (Sql.segments ts).map source := by
  induction ts with
  | nil => rfl
  | cons t ts ih =>
      have hrest := ih (h.suffix (List.suffix_cons t ts))
      by_cases hsemi : t = .semi
      · subst hsemi
        have hsegments : Sql.segments (.semi :: ts) = [] :: Sql.segments ts := splitOn_cons_self ts
        rw [hsegments, List.map_cons, ← hrest]
        exact splitOn_cons_self (source ts)
      · have hfree := noSemicolon (h.apart.valid t List.mem_cons_self)
          (h.plain t List.mem_cons_self) (h.code t List.mem_cons_self) hsemi
        obtain ⟨c, cs, hcs, hcons⟩ := splitOn_cons_of_ne hsemi ts
        obtain ⟨d, ds, hds, htext⟩ := splitOn_append hfree (source ts)
        rw [hrest, Sql.segments, hcs, List.map_cons] at hds
        cases hds
        rw [source_cons, htext, Sql.segments, hcons, List.map_cons, source_cons]

/-- What the proof needs of a segment. -/
structure Segment (ts : List Lexeme) : Prop where
  clean : Clean ts
  free : ';' ∉ source ts

theorem Clean.segment (h : Clean ts) : ∀ part ∈ Sql.segments ts, Segment part := by
  intro part hpart
  obtain ⟨hwithin, hfree⟩ := mem_splitOn hpart
  have hclean := h.part hwithin
  refine ⟨hclean, fun hmem => ?_⟩
  obtain ⟨t, ht, hmem⟩ := List.mem_flatMap.mp hmem
  exact noSemicolon (hclean.apart.valid t ht) (hclean.plain t ht) (hclean.code t ht)
    (fun heq => hfree (heq ▸ ht)) hmem

/-! ## The last chunk of a trigger -/

theorem trim_spec (text : List Char) : ∃ s t, text = s ++ trim text ++ t ∧
    (∀ c ∈ s, isWhitespace c = true) ∧ ∀ c ∈ t, isWhitespace c = true := by
  refine ⟨text.takeWhile isWhitespace,
    ((text.dropWhile isWhitespace).reverse.takeWhile isWhitespace).reverse, ?_,
    fun c hc => List.mem_takeWhile_imp hc, fun c hc => ?_⟩
  · rw [List.append_assoc, trim, ← List.reverse_append, List.takeWhile_append_dropWhile,
      List.reverse_reverse, List.takeWhile_append_dropWhile]
  · exact List.mem_takeWhile_imp (List.mem_reverse.mp hc)

theorem trim_word {s e t : List Char} (hs : ∀ c ∈ s, isWhitespace c = true)
    (he : IsWord isWhitespace e) (ht : ∀ c ∈ t, isWhitespace c = true) : trim (s ++ e ++ t) = e := by
  have hfirst : (s ++ e ++ t).dropWhile isWhitespace = e ++ t := by
    rw [List.append_assoc, List.dropWhile_append_of_pos hs]
    obtain ⟨c, e, rfl⟩ := List.exists_cons_of_ne_nil he.nonempty
    exact List.dropWhile_cons_of_neg (by rw [he.solid c List.mem_cons_self]; exact Bool.false_ne_true)
  have hlast : (e ++ t).reverse.dropWhile isWhitespace = e.reverse := by
    rw [List.reverse_append, List.dropWhile_append_of_pos fun c hc => ht c (List.mem_reverse.mp hc)]
    obtain ⟨c, r, hr⟩ := List.exists_cons_of_ne_nil (List.reverse_ne_nil_iff.mpr he.nonempty)
    have hc : isWhitespace c = false :=
      he.solid c (List.mem_reverse.mp (hr ▸ List.mem_cons_self))
    rw [hr]
    exact List.dropWhile_cons_of_neg (by rw [hc]; exact Bool.false_ne_true)
  rw [trim, hfirst, hlast, List.reverse_reverse]

theorem isWord_end : IsWord isWhitespace "END".toList := .of_all _ rfl (by decide)

/-- The checker ends a trigger where SQLite does. -/
theorem Clean.isEnd_iff (h : Clean ts) {chunk : List Char}
    (hwords : words isWhitespace (source ts) = words isWhitespace chunk) :
    uppercase (trim chunk) = "END".toList ↔ isEnd ts = true := by
  constructor
  · intro hend
    obtain ⟨s, t, htext, hs, ht⟩ := trim_spec chunk
    have hword : IsWord isWhitespace (trim chunk) := by
      refine ⟨fun hnil => ?_, fun c hc => ?_⟩
      · rw [hnil] at hend
        cases hend
      · rw [← isWhitespace_toUpper]
        exact isWord_end.solid _ (hend ▸ List.mem_map_of_mem hc)
    have hsingle : upperWords (source ts) = ["END"].map String.toList ++ [] := by
      rw [upperWords, hwords, htext, List.append_assoc, words_blanks hs, words_append_blanks ht,
        hword.words_eq, List.map_singleton, hend]
      rfl
    obtain ⟨rest, hrest, hnil, _⟩ := h.afterWords_of_words (by decide) hsingle
    have hblank := (h.suffix (afterWords_suffix hrest)).isBlank (List.map_eq_nil_iff.mp hnil)
    rw [isEnd, hrest]
    exact hblank
  · intro hend
    obtain ⟨s, e, t, htext, hs, he, hupper, ht⟩ := h.endWord hend
    have hsingle : words isWhitespace chunk = [e] := by
      rw [← hwords, htext, List.append_assoc, words_blanks hs, words_append_blanks ht, he.words_eq]
    obtain ⟨p, q, rfl, hp, _, _, hq⟩ := words_eq_cons hsingle
    rw [trim_word hp he (words_eq_nil_iff.mp hq), hupper]

/-! ## Judging -/

variable {judged : Judged} {statement : List Char}

@[simp] theorem judge_created : (judge judged statement).created =
    judged.created ++ (createdTable (upperWords statement)).toList := by
  unfold judge
  dsimp only
  split_ifs with hnil
  · rw [hnil]
    exact (List.append_nil _).symm
  · rfl
  · rfl

theorem judge_violations (h : (judge judged statement).violations = []) : judged.violations = [] ∧
    (upperWords statement = [] ∨ (isAllowed judged.created (upperWords statement) = true ∧
      ∀ w ∈ upperWords statement, contains "/*" w = false)) := by
  unfold judge at h
  dsimp only at h
  split_ifs at h with hnil hok
  · exact ⟨h, .inl hnil⟩
  · rw [List.append_nil] at h
    simp only [Bool.and_eq_true, Bool.not_eq_true', List.any_eq_false, Bool.or_eq_true,
      not_or, Bool.not_eq_true] at hok
    exact ⟨h, .inr ⟨hok.1.1, fun w hw => (hok.1.2 w hw).2⟩⟩
  · exact absurd (List.append_eq_nil_iff.mp h).2 (List.cons_ne_nil _ _)

theorem violations_foldl {l : List (List Char)} (h : (l.foldl judge judged).violations = []) :
    judged.violations = [] := by
  induction l generalizing judged with
  | nil => exact h
  | cons c l ih => exact (judge_violations (ih h)).1

theorem judge_mem {l : List (List Char)} (h : (l.foldl judge judged).violations = [])
    (hmem : statement ∈ l) : ∃ before, (judge before statement).violations = [] := by
  induction l generalizing judged with
  | nil => cases hmem
  | cons c l ih =>
      rcases List.mem_cons.mp hmem with rfl | hmem
      · exact ⟨judged, violations_foldl h⟩
      · exact ih h hmem

/-! ## A block comment is seen -/

theorem infix_statementsFrom {chunks : List (List Char)} {trigger : Option (List Char)}
    {part : List Char} (h : part ∈ chunks ∨ ∃ text ∈ trigger, part <:+: text) :
    ∃ statement ∈ statementsFrom trigger chunks, part <:+: statement := by
  induction chunks generalizing trigger with
  | nil =>
      obtain ⟨text, rfl, hwithin⟩ := h.resolve_left List.not_mem_nil
      exact ⟨text, List.mem_singleton_self text, hwithin⟩
  | cons chunk rest ih =>
      cases trigger with
      | none =>
          have hchunk := h.resolve_right fun ⟨_, hnone, _⟩ => by cases hnone
          rw [statementsFrom]
          split_ifs
          · refine ih ?_
            rcases List.mem_cons.mp hchunk with rfl | hchunk
            · exact .inr ⟨part, rfl, List.infix_refl part⟩
            · exact .inl hchunk
          · rcases List.mem_cons.mp hchunk with rfl | hchunk
            · exact ⟨part, List.mem_cons_self, List.infix_refl part⟩
            · obtain ⟨statement, hmem, hwithin⟩ := @ih none (.inl hchunk)
              exact ⟨statement, List.mem_cons_of_mem _ hmem, hwithin⟩
      | some text =>
          -- What has begun and the chunk are put together.
          have hgrown : part ∈ rest ∨ part <:+: text ++ ';' :: chunk := by
            rcases h with h | ⟨_, htext, hwithin⟩
            · rcases List.mem_cons.mp h with rfl | h
              · exact .inr ((List.suffix_cons ';' part).trans (List.suffix_append text _)).isInfix
              · exact .inl h
            · rw [Option.mem_some_iff] at htext
              exact .inr (htext ▸ hwithin |>.trans (List.prefix_append text _).isInfix)
          rw [statementsFrom]
          split_ifs
          · rcases hgrown with hrest | hwithin
            · obtain ⟨statement, hmem, hwithin⟩ := @ih none (.inl hrest)
              exact ⟨statement, List.mem_cons_of_mem _ hmem, hwithin⟩
            · exact ⟨_, List.mem_cons_self, hwithin⟩
          · exact ih (hgrown.imp_right fun hwithin => ⟨_, rfl, hwithin⟩)

theorem isWord_block : IsWord isWhitespace "/*".toList := .of_all _ rfl (by decide)

/-- An accepted text has no block comment left in it. -/
theorem no_block {text : List Char} (h : compatibilityViolations text = []) :
    ¬"/*".toList <:+: strip false text := by
  intro hwithin
  -- It stands in a word of the checker's text, so in a chunk, in a statement and in a word of that.
  obtain ⟨w, hw, hwithin⟩ := exists_word_within isWord_block hwithin
  rw [(reflow_withoutComments text).words_eq] at hw
  obtain ⟨p, q, hsplit, -⟩ := mem_words hw
  have htext : "/*".toList <:+: withoutComments text := hwithin.trans ⟨p, q, hsplit.symm⟩
  have hfree : IsWord (· == ';') "/*".toList := .of_all _ rfl (by decide)
  obtain ⟨chunk, hchunk, hwithin⟩ := exists_word_within hfree htext
  have hmem : chunk ∈ (withoutComments text).splitOn ';' := by
    rw [List.splitOn_eq_splitOnP]
    exact List.mem_of_mem_filter hchunk
  obtain ⟨statement, hstatement, hpart⟩ :
      ∃ statement ∈ statements (withoutComments text), chunk <:+: statement :=
    infix_statementsFrom (.inl hmem)
  obtain ⟨before, hjudged⟩ := judge_mem h hstatement
  obtain ⟨v, hv, hwithin⟩ := exists_word_within isWord_block (hwithin.trans hpart)
  have hupper : contains "/*" (uppercase v) = true :=
    contains_iff.mpr (hwithin.map Char.toUpper)
  have hmem : uppercase v ∈ upperWords statement := List.mem_map_of_mem hv
  rcases (judge_violations hjudged).2 with hnil | ⟨-, hnone⟩
  · rw [hnil] at hmem
    cases hmem
  · rw [hnone _ hmem] at hupper
    cases hupper

/-! ## Chunk by chunk -/

theorem reflow_intercalate {atEnd : Bool} {ss cs : List (List Char)} {s c : List Char}
    (h : List.Forall₂ (Reflow isWhitespace false) ss cs) (hlast : Reflow isWhitespace atEnd s c) :
    Reflow isWhitespace atEnd ([';'].intercalate (ss ++ [s])) ([';'].intercalate (cs ++ [c])) := by
  induction h with
  | nil => simpa using hlast
  | @cons s' c' ss cs hfirst _ ih =>
      obtain ⟨s₂, ss₂, hs⟩ := List.exists_cons_of_ne_nil (List.concat_ne_nil s ss)
      obtain ⟨c₂, cs₂, hc⟩ := List.exists_cons_of_ne_nil (List.concat_ne_nil c cs)
      rw [List.cons_append, List.cons_append, hs, hc, List.intercalate_cons_cons,
        List.intercalate_cons_cons, ← hs, ← hc, List.append_assoc, List.append_assoc]
      exact hfirst.append (.keep ';' ih)

/-- What has begun for SQLite and for the checker. -/
inductive Open : Option (List Lexeme × List (List Lexeme)) → Option (List Char) → Prop
  | nothing : Open none none
  | trigger {head : List Lexeme} {body : List (List Lexeme)} {chunks : List (List Char)}
      (hchunks : List.Forall₂ (Reflow isWhitespace false) ((head :: body).map source) chunks)
      (hsegments : ∀ part ∈ head :: body, Segment part)
      (hcreate : (behind ["CREATE", "TRIGGER"] (upperWords (source head))).isSome) :
      Open (some (head, body)) (some ([';'].intercalate chunks))

theorem Keeps.append {keys keys' : List (List Char)} {names' : List Name} (h : Keeps keys names)
    (h' : Keeps keys' names') : Keeps (keys ++ keys') (names ++ names') := by
  intro key hkey
  rcases List.mem_append.mp hkey with hkey | hkey
  · obtain ⟨name, hname, hof⟩ := h key hkey
    exact ⟨name, List.mem_append_left _ hname, hof⟩
  · obtain ⟨name, hname, hof⟩ := h' key hkey
    exact ⟨name, List.mem_append_right _ hname, hof⟩

/-- A key the checker adds keeps the table the statement creates. -/
theorem Clean.keeps_created (h : Clean ts) (hp : isPlainCommand existing ts = true) :
    Keeps (createdTable (upperWords (source ts))).toList (Schema.creates (.plain ts)).toList := by
  intro key hkey
  rw [Option.mem_toList] at hkey
  obtain ⟨_, name, hcreates, hof, _⟩ := h.creates hp hkey
  exact ⟨name, by simp [Schema.creates, hcreates], hof⟩

theorem isTrigger_of_create (h : Clean ts)
    (hcreate : (behind ["CREATE", "TRIGGER"] (upperWords (source ts))).isSome) :
    Sql.isTrigger ts = true := by
  obtain ⟨ws, hws⟩ := Option.isSome_iff_exists.mp hcreate
  obtain ⟨rest, hrest, _⟩ := h.afterWords_of_words (by decide) (behind_eq.mp hws)
  exact List.any_eq_true.mpr ⟨["CREATE", "TRIGGER"], by decide, Option.isSome_of_eq_some hrest⟩

/-- The checker begins a trigger at a chunk. -/
theorem take_two {chunk : List Char} :
    ((words isWhitespace chunk).take 2).map uppercase = ["CREATE".toList, "TRIGGER".toList] ↔
      (behind ["CREATE", "TRIGGER"] (upperWords chunk)).isSome := by
  rw [List.map_take]
  show (upperWords chunk).take 2 = _ ↔ _
  constructor
  · intro h
    have hsplit := List.take_append_drop 2 (upperWords chunk)
    rw [h] at hsplit
    exact Option.isSome_of_eq_some (behind_eq.mpr hsplit.symm)
  · intro h
    obtain ⟨ws, hws⟩ := Option.isSome_iff_exists.mp h
    rw [behind_eq.mp hws]
    rfl

/-! ## The whole text -/

theorem filterMap_creates (statement : Statement) (rest : List Statement) :
    (statement :: rest).filterMap creates =
      (Schema.creates statement).toList ++ rest.filterMap creates := by
  cases hcreates : Schema.creates statement <;> simp [hcreates]

/-- The chunk of a segment, and whether it is the last. -/
theorem chunk_of_part {part : List Lexeme} {parts : List (List Lexeme)} {chunks : List (List Char)}
    (h : Reflow.Parts isWhitespace true ((part :: parts).map source) chunks) :
    ∃ atEnd chunk rest, chunks = chunk :: rest ∧ Reflow isWhitespace atEnd (source part) chunk ∧
      ((parts = [] ∧ rest = []) ∨ Reflow.Parts isWhitespace true (parts.map source) rest) ∧
      (atEnd = true → parts = []) := by
  generalize hsources : (part :: parts).map source = sources at h
  cases h with
  | single h =>
      rw [List.map_cons, List.cons.injEq, List.map_eq_nil_iff] at hsources
      obtain ⟨rfl, rfl⟩ := hsources
      exact ⟨true, _, [], rfl, h, .inl ⟨rfl, rfl⟩, fun _ => rfl⟩
  | cons h hrest =>
      rw [List.map_cons, List.cons.injEq] at hsources
      obtain ⟨rfl, rfl⟩ := hsources
      exact ⟨false, _, _, rfl, h, .inr hrest, nofun⟩

/-- A chunk that begins no trigger and is let through. -/
theorem judge_plain {part : List Lexeme} {chunk : List Char} (hpart : Clean part)
    (hupper : upperWords (source part) = upperWords chunk)
    (hnot : behind ["CREATE", "TRIGGER"] (upperWords chunk) = none)
    (hok : (judge judged chunk).violations = []) (hkeeps : Keeps judged.created names) :
    Sql.isTrigger part = false ∧ (isPlainCommand existing part = true →
      Documented existing names (.plain part) ∧
        Keeps (judge judged chunk).created (names ++ (Schema.creates (.plain part)).toList)) := by
  have hblank (hnil : upperWords chunk = []) : Schema.isBlank part = true :=
    hpart.isBlank (List.map_eq_nil_iff.mp (hupper.trans hnil))
  have hjudged := (judge_violations hok).2
  refine ⟨?_, fun hplain => ⟨?_, ?_⟩⟩
  · rcases hjudged with hnil | ⟨hallowed, -⟩
    · exact isTrigger_of_isBlank (hblank hnil)
    · exact hpart.isTrigger (hupper ▸ hnot) (hupper ▸ hallowed)
  · rcases hjudged with hnil | ⟨hallowed, -⟩
    · exact .blank (hblank hnil)
    · exact hpart.documented hplain hkeeps (hupper ▸ hnot) (hupper ▸ hallowed)
  · rw [judge_created, ← hupper]
    exact hkeeps.append (hpart.keeps_created hplain)

/-- A trigger that ends and is let through. -/
theorem judge_trigger {head part : List Lexeme} {body : List (List Lexeme)}
    {chunks : List (List Char)} {chunk : List Char} {atEnd : Bool}
    (hchunks : List.Forall₂ (Reflow isWhitespace false) ((head :: body).map source) chunks)
    (hbegun : ∀ command ∈ head :: body, Segment command)
    (hcreate : (behind ["CREATE", "TRIGGER"] (upperWords (source head))).isSome)
    (hpart : Clean part) (hreflow : Reflow isWhitespace atEnd (source part) chunk)
    (hplain : isPlainTrigger head body = true) (hend : isEnd part = true)
    (hkeeps : Keeps judged.created names)
    (hok : (judge judged ([';'].intercalate (chunks ++ [chunk]))).violations = []) :
    Documented existing names (.trigger head body) ∧
      (judge judged ([';'].intercalate (chunks ++ [chunk]))).created = judged.created := by
  have hupper : upperWords ([';'].intercalate ((head :: body).map source ++ [source part])) =
      upperWords ([';'].intercalate (chunks ++ [chunk])) :=
    congrArg (List.map uppercase) (reflow_intercalate hchunks hreflow).words_eq
  have hallowed : isAllowed judged.created
      (upperWords ([';'].intercalate (chunks ++ [chunk]))) = true := by
    rcases (judge_violations hok).2 with hnil | ⟨hallowed, -⟩
    · -- There is a semicolon in it.
      have hne : chunks ≠ [] := by
        rintro rfl
        cases hchunks
      have hsemi : ';' ∈ [';'].intercalate (chunks ++ [chunk]) := by
        rw [intercalate_concat _ hne, List.append_assoc]
        exact List.mem_append_right _ List.mem_cons_self
      have hblank := words_eq_nil_iff.mp (List.map_eq_nil_iff.mp hnil) _ hsemi
      exact absurd hblank (by decide)
    · exact hallowed
  have hclean : ∀ command ∈ body, Clean command := fun command hmem =>
    (hbegun command (List.mem_cons_of_mem _ hmem)).clean
  obtain ⟨hnone, hdocumented⟩ : _ ∧ Documented existing names (.trigger head body) :=
    (hbegun head List.mem_cons_self).clean.documentedTrigger hclean hpart hplain hend
      (fun command hmem => (hbegun command hmem).free) hkeeps hcreate (hupper ▸ hallowed)
  refine ⟨hdocumented, ?_⟩
  rw [judge_created, ← hupper, hnone]
  exact List.append_nil _

/-- What the checker lets through from a chunk on is documented from the segment on. -/
theorem documented_from {parts : List (List Lexeme)} {chunks : List (List Char)}
    {begun : Option (List Lexeme × List (List Lexeme))} {trigger : Option (List Char)}
    (hparts : (parts = [] ∧ chunks = []) ∨ Reflow.Parts isWhitespace true (parts.map source) chunks)
    (hsegments : ∀ part ∈ parts, Segment part) (hopen : Open begun trigger)
    (hplain : ∀ st ∈ divide begun parts, isPlainStatement existing st = true)
    (hkeeps : Keeps judged.created names)
    (hok : ((statementsFrom trigger chunks).foldl judge judged).violations = []) :
    ∀ before st after, divide begun parts = before ++ st :: after →
      Documented existing (names ++ before.filterMap creates) st := by
  induction parts generalizing chunks begun trigger judged names with
  | nil =>
      cases hopen with
      | nothing => exact fun before st after h => absurd h (by simp [divide])
      | trigger => cases hplain _ (List.mem_singleton_self _)
  | cons part parts ih =>
      obtain ⟨hpart, hsegments⟩ := List.forall_mem_cons.mp hsegments
      obtain ⟨atEnd, chunk, rest, rfl, hreflow, hrest, hlast⟩ :=
        chunk_of_part (hparts.resolve_left fun h => List.cons_ne_nil _ _ h.1)
      have hwords : words isWhitespace (source part) = words isWhitespace chunk := hreflow.words_eq
      have hupper : upperWords (source part) = upperWords chunk :=
        congrArg (List.map uppercase) hwords
      -- The last segment leaves no trigger open.
      have hgoesOn {head : List Lexeme} {body : List (List Lexeme)}
          (h : ∀ st ∈ divide (some (head, body)) parts, isPlainStatement existing st = true) :
          atEnd = false := by
        refine Bool.eq_false_iff.mpr fun hatEnd => ?_
        rw [hlast hatEnd] at h
        cases h _ (List.mem_singleton_self _)
      cases hopen with
      | nothing =>
          by_cases hcreate : (behind ["CREATE", "TRIGGER"] (upperWords chunk)).isSome
          · -- A trigger begins for both.
            have hbegins := isTrigger_of_create hpart.clean (hupper ▸ hcreate)
            rw [statementsFrom, if_pos (take_two.mpr hcreate)] at hok
            rw [divide, if_pos hbegins] at hplain ⊢
            obtain rfl := hgoesOn hplain
            have hbegun : Open (some (part, [])) (some ([';'].intercalate [chunk])) :=
              .trigger (.cons hreflow .nil) (List.forall_mem_singleton.mpr hpart) (hupper ▸ hcreate)
            rw [List.intercalate_singleton] at hbegun
            exact ih hrest hsegments hbegun hplain hkeeps hok
          · rw [statementsFrom, if_neg (mt take_two.mp hcreate), List.foldl_cons] at hok
            obtain ⟨hnone, hjudged⟩ := judge_plain hpart.clean hupper
              (Option.not_isSome_iff_eq_none.mp hcreate) (violations_foldl hok) hkeeps
            rw [divide, if_neg (by rw [hnone]; exact Bool.false_ne_true)] at hplain ⊢
            obtain ⟨hplainPart, hplain⟩ := List.forall_mem_cons.mp hplain
            obtain ⟨hdocumented, hkept⟩ := hjudged hplainPart
            intro before st after hsplit
            cases before with
            | nil =>
                obtain ⟨rfl, -⟩ := List.cons.inj hsplit
                rwa [List.filterMap_nil, List.append_nil]
            | cons first before =>
                obtain ⟨rfl, hbehind⟩ := List.cons.inj hsplit
                have hlater := ih hrest hsegments .nothing hplain hkept hok before st after hbehind
                rwa [List.append_assoc, ← filterMap_creates] at hlater
      | @trigger head body begun hchunks hbegun hcreate =>
          have hne : begun ≠ [] := by
            rintro rfl
            cases hchunks
          have htext := intercalate_concat [';'] hne chunk
          rw [List.append_assoc, List.singleton_append] at htext
          by_cases hend : isEnd part = true
          · rw [statementsFrom, if_pos ((hpart.clean.isEnd_iff hwords).mpr hend), List.foldl_cons,
              ← htext] at hok
            rw [divide, if_pos hend] at hplain ⊢
            obtain ⟨hplainTrigger, hplain⟩ := List.forall_mem_cons.mp hplain
            obtain ⟨hdocumented, hcreated⟩ := judge_trigger hchunks hbegun hcreate hpart.clean hreflow
              hplainTrigger hend hkeeps (violations_foldl hok)
            intro before st after hsplit
            cases before with
            | nil =>
                obtain ⟨rfl, -⟩ := List.cons.inj hsplit
                rwa [List.filterMap_nil, List.append_nil]
            | cons first before =>
                obtain ⟨rfl, hbehind⟩ := List.cons.inj hsplit
                exact ih hrest hsegments .nothing hplain (hcreated ▸ hkeeps) hok before st after hbehind
          · rw [statementsFrom, if_neg (mt (hpart.clean.isEnd_iff hwords).mp hend), ← htext] at hok
            rw [divide, if_neg hend] at hplain ⊢
            obtain rfl := hgoesOn hplain
            have hgrown : Open (some (head, body ++ [part]))
                (some ([';'].intercalate (begun ++ [chunk]))) := by
              refine .trigger ?_ ?_ hcreate
              · rw [← List.cons_append, List.map_append, List.map_singleton]
                exact List.rel_append hchunks (.cons hreflow .nil)
              · rw [← List.cons_append]
                intro command hmem
                rcases List.mem_append.mp hmem with hmem | hmem
                · exact hbegun command hmem
                · exact List.mem_singleton.mp hmem ▸ hpart
            exact ih hrest hsegments hgrown hplain hkeeps hok

/-- Where the checker reads a text as SQLite does, each statement of a text it accepts is documented. -/
theorem documented_of_accepted {text : List Char} (hplain : readsPlainly existing text = true)
    (hok : compatibilityViolations text = []) : OnlyAdds existing text := by
  rw [readsPlainly, Bool.and_eq_true, List.all_eq_true, List.all_eq_true] at hplain
  obtain ⟨hlexemes, hstatements⟩ := hplain
  have hlexes := lexes_lex text
  obtain ⟨hblock, hsource⟩ := (strip_source hlexes hlexemes).resolve_right (no_block hok)
  have hclean : Clean (code (lex text)) := by
    refine ⟨hlexes.apart hblock, fun t ht => hlexemes t (List.mem_of_mem_filter ht), fun t ht => ?_⟩
    simpa using List.of_mem_filter ht
  have hparts : Reflow.Parts isWhitespace true ((strip false text).splitOn ';')
      ((withoutComments text).splitOn ';') := (reflow_withoutComments text).splitOn (by decide)
  rw [hsource, hclean.splitOn_source] at hparts
  have hkeeps : Keeps ({} : Judged).created [] := nofun
  intro before st after hsplit
  have hst := documented_from (.inr hparts) hclean.segment .nothing hstatements hkeeps hok before st
    after hsplit
  rwa [List.nil_append] at hst

/-- A migration with a table of its own, a literal that says `END`, and a trigger on an older table. -/
def exampleMigration : String :=
  "CREATE TABLE n (b TEXT DEFAULT 'END'); -- new\n" ++
  "CREATE TRIGGER t AFTER INSERT ON tasks BEGIN\n" ++
  " INSERT INTO n (b) VALUES (1);\nEND;"

end Dagq.Schema
