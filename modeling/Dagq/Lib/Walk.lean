/-
# Dagq.Lib.Walk -- following a partial function until it ends or comes back.

`walk f` collects what `f` leads to from a start, and stops where `f` gives nothing or something already
seen, so it ends on cycles too.  A function with finitely many values is walked in as many steps as it
has values, and what is collected is everything the start leads to.  `follow f` looks out for no cycle:
it ends where there is none.
-/
import Dagq.Lib.Graph
import Mathlib.Data.List.Chain
import Mathlib.Data.List.Perm.Subperm
import Mathlib.Data.List.Nodup
import Mathlib.Tactic.SplitIfs

namespace Dagq.Lib.Walk

variable {α : Type} [DecidableEq α]

/-- Follow `f` from `current`, at most `fuel` times; `none` when that is not enough. -/
def walk (f : α → Option α) : Nat → List α → α → Option (List α)
  | 0, _, _ => none
  | fuel + 1, seen, current =>
      match f current with
      | none => some seen
      | some next => if next ∈ seen then some seen else walk f fuel (seen ++ [next]) next

/-- One step of `f`. -/
def Step (f : α → Option α) (a b : α) : Prop := f a = some b

variable {f : α → Option α} {fuel : Nat} {seen result : List α} {start current : α}

/-- What is collected is led to from the start. -/
theorem walk_sound (h : walk f fuel seen current = some result)
    (hcurrent : Relation.ReflTransGen (Step f) start current)
    (hseen : ∀ a ∈ seen, Relation.ReflTransGen (Step f) start a) :
    ∀ a ∈ result, Relation.ReflTransGen (Step f) start a := by
  induction fuel generalizing seen current with
  | zero => cases h
  | succ fuel ih =>
      rw [walk] at h
      split at h
      · cases h
        exact hseen
      · rename_i next hnext
        split_ifs at h
        · cases h
          exact hseen
        · have hreach : Relation.ReflTransGen (Step f) start next := hcurrent.tail hnext
          refine ih h hreach fun a ha => ?_
          rcases List.mem_append.mp ha with ha | ha
          · exact hseen a ha
          · rw [List.mem_singleton.mp ha]
            exact hreach

theorem walk_extends (h : walk f fuel seen current = some result) : ∀ a ∈ seen, a ∈ result := by
  induction fuel generalizing seen current with
  | zero => cases h
  | succ fuel ih =>
      rw [walk] at h
      split at h
      · cases h
        exact fun _ ha => ha
      · split_ifs at h
        · cases h
          exact fun _ ha => ha
        · exact fun a ha => ih h a (List.mem_append_left _ ha)

/-- Only the step from where the walk stands may lead out of what it has seen; at its end none does. -/
theorem walk_closed (h : walk f fuel seen current = some result)
    (hseen : ∀ a ∈ seen, a = current ∨ ∀ b, f a = some b → b ∈ seen) :
    ∀ a ∈ result, ∀ b, f a = some b → b ∈ result := by
  induction fuel generalizing seen current with
  | zero => cases h
  | succ fuel ih =>
      rw [walk] at h
      split at h
      · rename_i hnone
        cases h
        intro a ha b hab
        rcases hseen a ha with rfl | hin
        · rw [hnone] at hab
          cases hab
        · exact hin b hab
      · rename_i next hnext
        -- The walk ends where it comes back to, else it goes on from the next.
        split_ifs at h with hmem
        · cases h
          intro a ha b hab
          rcases hseen a ha with rfl | hin
          · rw [hnext] at hab
            cases hab
            exact hmem
          · exact hin b hab
        · refine ih h fun a ha => ?_
          rcases List.mem_append.mp ha with ha | ha
          · refine .inr fun b hab => List.mem_append.mpr ?_
            rcases hseen a ha with rfl | hin
            · rw [hnext] at hab
              cases hab
              exact .inr (List.mem_singleton_self _)
            · exact .inl (hin b hab)
          · exact .inl (List.mem_singleton.mp ha)

/-- The walk from `start` collects everything `start` leads to, itself included. -/
theorem mem_walk_iff (h : walk f fuel [start] start = some result) {a : α} :
    a ∈ result ↔ Relation.ReflTransGen (Step f) start a := by
  constructor
  · refine walk_sound h .refl (fun b hb => ?_) a
    rw [List.mem_singleton.mp hb]
  · intro hreach
    induction hreach with
    | refl => exact walk_extends h start (List.mem_singleton_self _)
    | tail _ hstep ih =>
        exact walk_closed h (fun b hb => .inl (List.mem_singleton.mp hb)) _ ih _ hstep

/-- Each step adds a value of `f` not seen before, so there are no more steps than values. -/
theorem walk_isSome {values tail : List α} (hvalues : ∀ a b, f a = some b → b ∈ values)
    (htail : tail.Nodup) (hsub : tail ⊆ values) (hfuel : values.length < fuel + tail.length) :
    (walk f fuel (start :: tail) current).isSome := by
  induction fuel generalizing tail current with
  | zero =>
      have hle := (List.subperm_of_subset htail hsub).length_le
      omega
  | succ fuel ih =>
      rw [walk]
      split
      · rfl
      · rename_i next hnext
        split_ifs with hmem
        · rfl
        · rw [List.cons_append]
          have hnew : next ∉ tail := fun h => hmem (List.mem_cons_of_mem _ h)
          refine ih (List.nodup_append.mpr ⟨htail, List.nodup_singleton next, ?_⟩) ?_ ?_
          · intro a ha b hb
            rw [List.mem_singleton.mp hb]
            exact fun hab => hnew (hab ▸ ha)
          · refine List.append_subset.mpr ⟨hsub, ?_⟩
            exact List.forall_mem_singleton.mpr (hvalues _ _ hnext)
          · rw [List.length_append, List.length_singleton]
            omega

/-- More fuel changes nothing. -/
theorem walk_mono (h : walk f fuel seen current = some result) {more : Nat} (hle : fuel ≤ more) :
    walk f more seen current = some result := by
  induction fuel generalizing seen current more with
  | zero => cases h
  | succ fuel ih =>
      obtain ⟨more, rfl⟩ : ∃ m, more = m + 1 := ⟨more - 1, by omega⟩
      rw [walk] at h ⊢
      split at h
      · exact h
      · split_ifs at h ⊢
        · exact h
        · exact ih h (by omega)

/-! ## Without a look at what was seen -/

omit [DecidableEq α]

/-- Follow `f` from `start` until it gives nothing, at most `fuel` times; `none` when that is not
enough. -/
def follow (f : α → Option α) : Nat → Option α → Option (List α)
  | 0, _ => none
  | _ + 1, none => some []
  | fuel + 1, some a => (follow f fuel (f a)).map (a :: ·)

/-- Where nothing leads back to itself, everything on the way is new. -/
theorem follow_isSome {values seen : List α} {start : Option α} (hacyclic : Graph.Acyclic (Step f))
    (hvalues : ∀ a b, f a = some b → b ∈ values) (hstart : ∀ a ∈ start, a ∈ values)
    (hseen : seen.Nodup) (hsub : seen ⊆ values)
    (hback : ∀ a ∈ start, ∀ b ∈ seen, Relation.TransGen (Step f) b a)
    (hfuel : values.length < fuel + seen.length) : (follow f fuel start).isSome := by
  induction fuel generalizing seen start with
  | zero =>
      have hle := (List.subperm_of_subset hseen hsub).length_le
      omega
  | succ fuel ih =>
      cases start with
      | none => rfl
      | some a =>
          rw [follow, Option.isSome_map]
          have hback := hback a rfl
          have hnew : a ∉ seen := fun ha => hacyclic a (hback a ha)
          have hseen : (a :: seen).Nodup := List.nodup_cons.mpr ⟨hnew, hseen⟩
          refine ih (fun b hb => hvalues a b hb) hseen (List.cons_subset.mpr ⟨hstart a rfl, hsub⟩)
            (fun b hb c hc => ?_) ?_
          · rcases List.mem_cons.mp hc with rfl | hc
            · exact .single hb
            · exact (hback c hc).tail hb
          · rw [List.length_cons]
            omega

/-- What is followed starts at `start`, goes on by `f` and ends where `f` gives nothing. -/
theorem follow_spec {start : Option α} (h : follow f fuel start = some result) :
    result.head? = start ∧ result.IsChain (Step f) ∧ ∀ a ∈ result.getLast?, f a = none := by
  induction fuel generalizing start result with
  | zero => cases h
  | succ fuel ih =>
      cases start with
      | none =>
          cases h
          exact ⟨rfl, .nil, by simp⟩
      | some a =>
          rw [follow, Option.map_eq_some_iff] at h
          obtain ⟨rest, hrest, rfl⟩ := h
          obtain ⟨hhead, hchain, hlast⟩ := ih hrest
          refine ⟨rfl, List.isChain_cons.mpr ⟨fun b hb => ?_, hchain⟩, fun b hb => ?_⟩
          · rw [hhead] at hb
            exact hb
          · cases rest with
            | nil =>
                -- Nothing followed: `f` gave nothing.
                cases hb
                exact hhead.symm
            | cons c rest => exact hlast b (by rwa [List.getLast?_cons_cons] at hb)

end Dagq.Lib.Walk
