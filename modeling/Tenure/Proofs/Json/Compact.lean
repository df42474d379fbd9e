import Tenure.Proofs.Json.Spelling

/-!
# `Tenure.Proofs.Json.Compact`: trees on one line

The layout of a text does not matter for what is read from it, and the shortest layout has
no spaces at all.

* `Written.spells_compact`: a tree of texts and natural numbers is spelled by its line.
-/

set_option autoImplicit false

namespace Tenure.Json

/-- The compact items of an array spell the items, when each of them spells itself. -/
theorem spells_compactItems {item : Tree} {items : List Tree} (hitem : Spells (compact item) item)
    (hitems : ∀ other ∈ items, Spells (compact other) other) :
    SpellsItems (compactItems (item :: items) ++ [0x5d]) (item :: items) := by
  induction items generalizing item with
  | nil => exact spellsItems_last hitem isGap_nil
  | cons next items ih =>
    have hrest := ih (hitems next List.mem_cons_self) fun other hmem =>
      hitems other (List.mem_cons_of_mem _ hmem)
    have hall := spellsItems_cons hitem isGap_nil hrest
    simpa only [compactItems, List.append_assoc, List.cons_append, List.nil_append] using hall

/-- The compact members of an object spell the members, when each value spells itself. -/
theorem spells_compactMembers {m : String × Tree} {members : List (String × Tree)}
    (hm : Spells (compact m.2) m.2)
    (hmembers : ∀ other ∈ members, Spells (compact other.2) other.2) :
    SpellsMembers
      (compactMembers ((m :: members).map fun (name, value) => (escape name, value)) ++ [0x7d])
      ((m :: members).map fun (name, value) => (escape name, value)) := by
  induction members generalizing m with
  | nil =>
    have hlast := spellsMembers_last m.1 hm isGap_nil
    simpa only [List.map_cons, List.map_nil, compactMembers, List.append_assoc, List.cons_append,
      List.nil_append] using hlast
  | cons next members ih =>
    have hrest := ih (hmembers next List.mem_cons_self) fun other hmem =>
      hmembers other (List.mem_cons_of_mem _ hmem)
    have hall := spellsMembers_cons m.1 hm isGap_nil hrest
    simpa only [List.map_cons, compactMembers, List.append_assoc, List.cons_append,
      List.nil_append] using hall

/-- A tree of texts and natural numbers is spelled by its line. -/
theorem Written.spells_compact {t : Tree} (h : Written t) : Spells (compact t) t := by
  induction h with
  | null => exact spells_null
  | bool b =>
    cases b with
    | false => exact spells_false
    | true => exact spells_true
  | ofNat n => exact spells_ofNat n
  | ofText s => exact spells_ofText s
  | @array items hitems ih =>
    -- an empty array has no first item to begin with, so it is spelled on its own
    cases items with
    | nil => exact spells_array_nil
    | cons item items =>
      have hall := spells_compactItems (ih item List.mem_cons_self) fun other hmem =>
        ih other (List.mem_cons_of_mem _ hmem)
      exact spells_array hall
  | @ofMembers members hmembers ih =>
    cases members with
    | nil => exact spells_object_nil
    | cons m members =>
      have hall := spells_compactMembers (ih m List.mem_cons_self) fun other hmem =>
        ih other (List.mem_cons_of_mem _ hmem)
      exact spells_object hall

end Tenure.Json
