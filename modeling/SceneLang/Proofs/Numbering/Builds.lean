import Mathlib.Data.List.Perm.Subperm
import SceneLang.Proofs.Numbering.Interpolations
import SceneLang.Proofs.Parser.Makes
import SceneLang.Proofs.Shift.Values

/-!
# Where interpolations are kept

A parse numbers the interpolations in the order in which it reads them and keeps their texts in a
table.  It may drop a value that it has read, but it never uses one twice: what a parser builds is
made of what it is given and of what it reads, each piece used at most once.
-/

namespace SceneLang

namespace Table

variable {α : Type}

theorem keys_insert_perm {table : Table α} {key : String} (value : α)
    (habsent : table.find? key = none) :
    (table.insert key value).keys.Perm (key :: table.keys) := by
  induction table with
  | nil => exact .refl _
  | cons entry rest ih =>
      obtain ⟨other, kept⟩ := entry
      rw [find?] at habsent
      split at habsent
      · contradiction
      next hkey =>
        rw [insert]
        split
        · exact .refl _
        · exact ((ih habsent).cons other).trans (.swap key other _)

theorem mem_keys_of_find? {table : Table α} {key : String} {value : α}
    (h : table.find? key = some value) : key ∈ table.keys := by
  induction table with
  | nil => cases h
  | cons entry rest ih =>
      obtain ⟨other, kept⟩ := entry
      rw [find?] at h
      split at h
      next hkey => exact hkey ▸ List.mem_cons_self
      next => exact List.mem_cons_of_mem _ (ih h)

end Table

theorem count_flatMap_reverse {α : Type} (parts : α → List Interpolation) (items : List α)
    (one : Interpolation) :
    (items.reverse.flatMap parts).count one = (items.flatMap parts).count one :=
  ((List.reverse_perm items).flatMap_right parts).count_eq one

/-- The names of a table are those of the first numbers, as many as there are entries. -/
def Counted (expressions : Table String) : Prop :=
  expressions.keys.Perm ((List.range expressions.length).map interpolationName)

namespace Counted

variable {expressions : Table String}

theorem find?_eq_none (h : Counted expressions) :
    expressions.find? (interpolationName expressions.length) = none := by
  by_contra hfound
  obtain ⟨text, htext⟩ := Option.ne_none_iff_exists'.mp hfound
  have hmem := h.subset (Table.mem_keys_of_find? htext)
  obtain ⟨number, hnumber, hname⟩ := List.mem_map.mp hmem
  rw [interpolationName_injective hname, List.mem_range] at hnumber
  exact Nat.lt_irrefl _ hnumber

theorem insert (h : Counted expressions) (text : String) :
    Counted (expressions.insert (interpolationName expressions.length) text) := by
  have hperm := Table.keys_insert_perm text h.find?_eq_none
  have hlength := hperm.length_eq
  simp only [Table.keys, List.length_map, List.length_cons] at hlength
  rw [Counted, hlength, List.range_succ, List.map_append]
  exact hperm.trans ((h.cons _).trans (List.perm_append_singleton _ _).symm)

end Counted

namespace Parser

variable {held others : List Interpolation} {state next : State}

/-! ## What has been read and is kept -/

/-- What is held of the interpolations read so far: each has its text in the table of the state,
none is held twice, and the table is numbered without gaps. -/
structure Tracked (held : List Interpolation) (state : State) : Prop where
  counted : Counted state.expressions
  nodup : (held.map Interpolation.id).Nodup
  found : ∀ one ∈ held, state.expressions.find? one.id = some one.expression

/-- What is read later has other identifiers. -/
theorem Tracked.later (h : Tracked held state) (hreaches : Reaches state next) :
    Tracked held next := by
  apply hreaches.invariant _ h
  intro first second hstep hfirst
  cases hstep with
  | advance =>
      unfold State.advance
      split
      · exact hfirst
      · split
        · exact hfirst
        · exact ⟨hfirst.counted, hfirst.nodup, hfirst.found⟩
  | interpolation text =>
      refine ⟨hfirst.counted.insert text, hfirst.nodup, fun one hmem => ?_⟩
      have hone := hfirst.found one hmem
      have hname : one.id ≠ interpolationId first.expressions := fun hname => by
        have hnone : first.expressions.find? (interpolationId first.expressions) = none :=
          hfirst.counted.find?_eq_none
        rw [hname, hnone] at hone
        cases hone
      rw [Table.find?_insert, if_neg hname, hone]
  | report | valueFailed | use | enter | leave | imports =>
      exact ⟨hfirst.counted, hfirst.nodup, hfirst.found⟩

/-- Anything may be dropped, but nothing may be held more often than before. -/
theorem Tracked.of_count_le (h : Tracked held state)
    (hle : ∀ one, others.count one ≤ held.count one) : Tracked others state := by
  have hsubperm : others.Subperm held := List.subperm_ext_iff.mpr fun one _ => hle one
  obtain ⟨kept, hperm, hsublist⟩ := hsubperm
  refine ⟨h.counted, ?_, fun one hmem => h.found one (hsublist.subset (hperm.mem_iff.mpr hmem))⟩
  exact (hperm.map Interpolation.id).nodup_iff.mp (h.nodup.sublist (hsublist.map _))

theorem Tracked.interpolation (h : Tracked held state) (text : String) :
    Tracked (held ++ [⟨interpolationId state.expressions, text⟩])
      { state with
        expressions := state.expressions.insert (interpolationId state.expressions) text } := by
  have hnone : state.expressions.find? (interpolationId state.expressions) = none :=
    h.counted.find?_eq_none
  have hlater := h.later (.single (.interpolation state text))
  refine ⟨hlater.counted, ?_, fun one hmem => ?_⟩
  · rw [List.map_append, List.nodup_append]
    refine ⟨h.nodup, by simp, fun id hid other hother hsame => ?_⟩
    obtain ⟨one, hmem, rfl⟩ := List.mem_map.mp hid
    have hone := h.found one hmem
    rw [hsame, List.mem_singleton.mp hother, hnone] at hone
    cases hone
  · obtain hmem | hmem := List.mem_append.mp hmem
    · exact hlater.found one hmem
    · rw [List.mem_singleton.mp hmem, Table.find?_insert, if_pos rfl]

/-! ## What parsers build -/

theorem lasting_tracked {α : Type} (others : List Interpolation)
    (parts : α → List Interpolation) :
    Lasting fun value state => Tracked (others ++ parts value) state :=
  fun _ _ _ hreaches h => h.later hreaches

/-- Out of what it is given and what it reads the parser builds a result with these parts, and no
piece is used twice; what is held elsewhere meanwhile stays apart from it. -/
structure Builds {α : Type} (given : List Interpolation) (p : Parser α)
    (parts : α → List Interpolation) : Prop where
  makes : ∀ {bound depth : Nat} {others : List Interpolation} {past : State},
    Tracked (others ++ given) past →
      Makes bound depth past p fun value state => Tracked (others ++ parts value) state

namespace Builds

variable {α β : Type} {p q : Parser α} {f : α → Parser β} {given : List Interpolation}
  {parts : α → List Interpolation} {parts' : β → List Interpolation}

theorem pure {value : α} (h : ∀ one, (parts value).count one ≤ given.count one) :
    Builds given (pure value) parts where
  makes hpast := by
    apply (lasting_tracked _ parts).makes
    apply hpast.of_count_le
    intro one
    rw [List.count_append, List.count_append]
    exact Nat.add_le_add_left (h one) _

/-- A result that holds what is given. -/
theorem give {value : α} (h : parts value = given) : Builds given (Pure.pure value) parts :=
  Builds.pure fun one => Nat.le_of_eq (congrArg (List.count one) h)

/-- A result that holds nothing. -/
theorem drop {value : α} (h : parts value = []) : Builds given (Pure.pure value) parts :=
  Builds.pure fun one => by
    rw [h, List.count_nil]
    exact Nat.zero_le _

/-- A result whose items are held in the other order. -/
theorem reverse (parts : α → List Interpolation) (items : List α) :
    Builds (items.flatMap parts) (Pure.pure items.reverse) (·.flatMap parts) :=
  Builds.pure fun one => Nat.le_of_eq (count_flatMap_reverse parts items one)

theorem throw {fault : Fault} : Builds given (throw fault) parts where
  makes _ := makes_throw

theorem mono (h : Builds given p parts) {weaker : α → List Interpolation}
    (hle : ∀ value one, (weaker value).count one ≤ (parts value).count one) :
    Builds given p weaker where
  makes hpast := by
    refine (h.makes hpast).mono fun value now _ hvalue => hvalue.of_count_le fun one => ?_
    rw [List.count_append, List.count_append]
    exact Nat.add_le_add_left (hle value one) _

/-- More may be given than is used. -/
theorem of_count_le {less : List Interpolation} (h : Builds less p parts)
    (hle : ∀ one, less.count one ≤ given.count one) : Builds given p parts where
  makes hpast := by
    refine h.makes (hpast.of_count_le fun one => ?_)
    rw [List.count_append, List.count_append]
    exact Nat.add_le_add_left (hle one) _

theorem bind (hp : Builds given p parts) (hf : ∀ value, Builds (parts value) (f value) parts') :
    Builds given (p >>= f) parts' where
  makes hpast := (hp.makes hpast).bind fun value _ _ hvalue => (hf value).makes hvalue

/-- What a parser builds of nothing is put beside what is given. -/
theorem read (hp : Builds [] p parts)
    (hf : ∀ value, Builds (given ++ parts value) (f value) parts') :
    Builds given (p >>= f) parts' where
  makes hpast := by
    rw [← List.append_nil (_ ++ given)] at hpast
    refine (hp.makes hpast).bind fun value now _ hvalue => ?_
    rw [List.append_assoc] at hvalue
    exact (hf value).makes hvalue

/-- Where a parser is steady, its result is made of nothing. -/
theorem before (hp : ∀ {bound depth : Nat}, Steady bound depth p)
    (hf : ∀ value, Builds given (f value) parts') : Builds given (p >>= f) parts' where
  makes hpast := hp.makes.bind fun value _ hnow _ => (hf value).makes (hpast.later hnow)

theorem ite {c : Prop} [Decidable c] (hp : c → Builds given p parts)
    (hq : ¬c → Builds given q parts) : Builds given (if c then p else q) parts where
  makes hpast := .ite (fun h => (hp h).makes hpast) fun h => (hq h).makes hpast

theorem lower (count : Nat) : Builds given (lower count) fun _ => given := by
  cases count with
  | zero => exact throw
  | succ count => exact Builds.pure fun _ => Nat.le_refl _

end Builds

/-- What a turn of a loop builds: the result of the loop, or what the loop goes on with. -/
def turnParts {β : Type} (done yield : β → List Interpolation) :
    ForInStep β → List Interpolation
  | .done value => done value
  | .yield value => yield value

namespace Builds

variable {β : Type} {given : List Interpolation} {parts result : β → List Interpolation}
  {start : β}

theorem iterate {step : β → Parser (ForInStep β)}
    (hturn : ∀ value, Builds (parts value) (step value) (turnParts result parts)) :
    Builds (parts start) (iterate start step) result where
  makes hpast := by
    refine Makes.iterate (lasting_tracked _ parts) hpast fun value now _ hvalue => ?_
    refine ((hturn value).makes hvalue).mono fun turned next _ hturned => ?_
    cases turned with
    | done value => exact hturned
    | yield value => exact hturned

/-- What each item of a block builds out of the items before it, the block does. -/
theorem braced {item : β → Parser β}
    (hitem : ∀ value, Builds (parts value) (item value) parts) :
    Builds (parts start) (braced start item) parts where
  makes hpast := .braced (lasting_tracked _ parts) hpast fun value _ _ hvalue =>
    (hitem value).makes hvalue

theorem deeper {refused body : Parser β} (hrefused : Builds given refused parts)
    (hbody : Builds given body parts) : Builds given (deeper refused body) parts where
  makes hpast := .deeper (lasting_tracked _ parts)
    (fun _ _ hnow _ => hrefused.makes (hpast.later hnow))
    fun _ _ hnow => hbody.makes (hpast.later hnow)

end Builds

end Parser

end SceneLang
