import EditorCore.Proofs.Flow
import EditorCore.Workspace

/-!
Contract: names lead to tabs, and the active index to the active tab.

Owns:
- `Workspace.Orderly`, what holds between any two calls: names are distinct, there is
  an active index exactly if there are tabs, and it is in range;
- where a name and the active tab are found;
- the index of the active tab after a tab has been removed, which designates the
  same tab, or a neighbour of the removed one;
- that activating, adding, closing and editing keep the tabs orderly.

Does not own: what calls report.
-/

namespace EditorCore

variable {κ : Type}

/-! ## Indices -/

section Indices

variable {α : Type} {before after : List α} {item : α}

/-- An item that is not removed is found at its new index. -/
theorem getElem?_renumbered {place : Nat} (other : place ≠ before.length) :
    (before ++ after)[Workspace.renumbered before.length place]? =
      (before ++ item :: after)[place]? := by
  rw [Workspace.renumbered, if_neg other]
  split
  · rename_i behind
    obtain ⟨distance, rfl⟩ := Nat.exists_eq_add_of_lt behind
    rw [List.getElem?_append_right (by omega), List.getElem?_append_right (by omega)]
    have gap : before.length + distance + 1 - before.length = distance + 1 := by omega
    rw [gap, List.getElem?_cons_succ]
    congr 1
    omega
  · have inFront : place < before.length := by omega
    rw [List.getElem?_append_left inFront, List.getElem?_append_left inFront]

/-- In place of the removed item there is the one on its left, or else the first. -/
theorem getElem?_renumbered_self :
    (before ++ after)[Workspace.renumbered before.length before.length]? =
      before.getLast?.or after.head? := by
  rw [Workspace.renumbered, if_pos rfl]
  obtain rfl | ⟨front, last, rfl⟩ := List.eq_nil_or_concat before
  · rw [List.nil_append, List.getLast?_nil, Option.none_or, List.head?_eq_getElem?]
    rfl
  · rw [List.concat_eq_append, List.getLast?_concat, List.length_append, List.length_singleton,
      Nat.add_sub_cancel, List.append_assoc, List.getElem?_append_right (Nat.le_refl _),
      Nat.sub_self]
    rfl

/-- An index that is in range stays so, unless nothing is left. -/
theorem renumbered_lt {removed active size : Nat} (gap : removed < size + 1)
    (inside : active < size + 1) (left : 0 < size) : Workspace.renumbered removed active < size := by
  unfold Workspace.renumbered
  split
  · omega
  · split <;> omega

end Indices

/-! ## Workspaces -/

namespace Workspace

variable {workspace next : Workspace κ} {name : String} {tab : Tab κ} {index : Nat}
variable {before after : List (Tab κ)}

def names (workspace : Workspace κ) : List String := workspace.tabs.map Tab.name

/-- What new editors are made with. -/
def setup (workspace : Workspace κ) : Settings κ × GlyphMetrics κ :=
  (workspace.settings, workspace.metrics)

/-- What holds between two calls: names are distinct, there is an active index
exactly if there are tabs, and the index is that of a tab. -/
structure Orderly (workspace : Workspace κ) : Prop where
  distinct : workspace.names.Nodup
  active_none : workspace.active = none ↔ workspace.tabs = []
  active_lt : ∀ index, workspace.active = some index → index < workspace.tabs.length

theorem orderly_empty (settings : Settings κ) (metrics : GlyphMetrics κ) :
    (empty settings metrics).Orderly where
  distinct := List.nodup_nil
  active_none := ⟨fun _ => rfl, fun _ => rfl⟩
  active_lt := nofun

/-- Looking up by index finds the first tab of a name. -/
theorem tab?_eq_find? (workspace : Workspace κ) (name : String) :
    workspace.tab? name = workspace.tabs.find? fun tab => tab.name = name :=
  List.find?_eq_bind_findIdx?_getElem?.symm

theorem name_of_tab? (found : workspace.tab? name = some tab) : tab.name = name := by
  rw [tab?_eq_find?] at found
  simpa using List.find?_some found

theorem name_mem_of_tab? (found : workspace.tab? name = some tab) : name ∈ workspace.names := by
  rw [← name_of_tab? found]
  rw [tab?_eq_find?] at found
  exact List.mem_map_of_mem (List.mem_of_find?_eq_some found)

theorem exists_place {items : List (Tab κ)} (found : items[index]? = some tab) :
    ∃ before after, items = before ++ tab :: after ∧ before.length = index := by
  obtain ⟨inside, rfl⟩ := List.getElem?_eq_some_iff.mp found
  refine ⟨items.take index, items.drop (index + 1), ?_, ?_⟩
  · rw [← List.drop_eq_getElem_cons inside, List.take_append_drop]
  · rw [List.length_take, Nat.min_eq_left (Nat.le_of_lt inside)]

theorem getElem?_place (place : workspace.tabs = before ++ tab :: after) :
    workspace.tabs[before.length]? = some tab := by
  rw [place, List.getElem?_append_right (Nat.le_refl _), Nat.sub_self]
  rfl

/-- A name that is not found is not open. -/
theorem position?_eq_none_iff : workspace.position? name = none ↔ name ∉ workspace.names := by
  rw [position?, List.findIdx?_eq_none_iff, names, List.mem_map]
  constructor
  · rintro others ⟨tab, member, named⟩
    exact absurd named (of_decide_eq_false (others tab member))
  · intro absent tab member
    exact decide_eq_false fun named => absent ⟨tab, member, named⟩

/-- A name is found where its tab stands. -/
theorem exists_of_position? (found : workspace.position? name = some index) :
    ∃ tab before after, workspace.tab? name = some tab ∧ tab.name = name ∧
      workspace.tabs = before ++ tab :: after ∧ before.length = index := by
  obtain ⟨inside, -, -⟩ := List.findIdx?_eq_some_iff_getElem.mp found
  have here : workspace.tab? name = some workspace.tabs[index] := by
    rw [tab?, found]
    exact List.getElem?_eq_getElem inside
  obtain ⟨before, after, place, length⟩ := exists_place (List.getElem?_eq_getElem inside)
  exact ⟨_, before, after, here, name_of_tab? here, place, length⟩

theorem active?_of_active (active : workspace.active = some index) :
    workspace.active? = workspace.tabs[index]? := by
  rw [active?, active]
  rfl

/-- The active tab stands at the active index. -/
theorem exists_of_active? (active : workspace.active? = some tab) :
    ∃ before after, workspace.tabs = before ++ tab :: after ∧
      workspace.active = some before.length := by
  obtain ⟨index, here, found⟩ := Option.bind_eq_some_iff.mp active
  obtain ⟨before, after, place, rfl⟩ := exists_place found
  exact ⟨before, after, place, here⟩

theorem mem_tabs_of_active (active : workspace.active? = some tab) : tab ∈ workspace.tabs := by
  obtain ⟨before, after, place, -⟩ := exists_of_active? active
  rw [place]
  exact List.mem_append_right _ List.mem_cons_self

/-- There is an active tab exactly if there is any. -/
theorem Orderly.active?_eq_none_iff (orderly : workspace.Orderly) :
    workspace.active? = none ↔ workspace.tabs = [] := by
  rw [← orderly.active_none]
  constructor
  · intro nothing
    cases active : workspace.active with
    | none => rfl
    | some index =>
        rw [active?_of_active active,
          List.getElem?_eq_getElem (orderly.active_lt index active)] at nothing
        cases nothing
  · intro nothing
    rw [active?, nothing]
    rfl

/-- Where names are distinct, a tab has one place. -/
theorem eq_length_of_getElem? (distinct : workspace.names.Nodup)
    (place : workspace.tabs = before ++ tab :: after) {index : Nat}
    (found : workspace.tabs[index]? = some tab) : index = before.length := by
  have first : workspace.names[index]? = some tab.name := by
    rw [names, List.getElem?_map, found]
    rfl
  have second : workspace.names[before.length]? = some tab.name := by
    rw [names, List.getElem?_map, getElem?_place place]
    rfl
  obtain ⟨inside, -⟩ := List.getElem?_eq_some_iff.mp first
  exact (List.getElem?_inj inside distinct).mp (first.trans second.symm)

/-! ## The active index -/

/-- Making an index active that has a tab. -/
theorem Orderly.activated (orderly : workspace.Orderly)
    (found : workspace.position? name = some index) :
    ({ workspace with active := some index } : Workspace κ).Orderly := by
  obtain ⟨tab, before, after, -, -, place, rfl⟩ := exists_of_position? found
  refine ⟨orderly.distinct, ⟨nofun, ?_⟩, ?_⟩
  · intro nothing
    rw [place] at nothing
    exact absurd nothing (by simp)
  · rintro _ ⟨⟩
    change before.length < workspace.tabs.length
    rw [place, List.length_append]
    exact Nat.lt_add_of_pos_right (Nat.succ_pos _)

/-- A new tab comes last and is active. -/
theorem Orderly.append (orderly : workspace.Orderly) (absent : tab.name ∉ workspace.names) :
    (workspace.append tab).Orderly where
  distinct := by
    change ((workspace.tabs ++ [tab]).map Tab.name).Nodup
    rw [List.map_append, List.map_singleton]
    exact (List.perm_append_singleton _ _).nodup_iff.mpr
      (List.nodup_cons.mpr ⟨absent, orderly.distinct⟩)
  active_none := by simp [Workspace.append]
  active_lt := by
    rintro _ ⟨⟩
    simp [Workspace.append]

theorem active?_append (workspace : Workspace κ) (tab : Tab κ) :
    (workspace.append tab).active? = some tab := by
  simp [Workspace.append, active?]

/-- The names of the other tabs stay distinct when one is closed. -/
theorem Orderly.nodup_rest (orderly : workspace.Orderly)
    (place : workspace.tabs = before ++ tab :: after) :
    ((before ++ after).map Tab.name).Nodup := by
  have distinct := orderly.distinct
  rw [names, place] at distinct
  exact distinct.sublist (((List.sublist_cons_self tab after).append_left before).map Tab.name)

/-- Closing takes the tab out from between the others. -/
theorem close_eq (workspace : Workspace κ) {name : String}
    (found : workspace.position? name = some before.length)
    (place : workspace.tabs = before ++ tab :: after) :
    workspace.close name =
      ({ workspace with
        tabs := before ++ after
        active := if (before ++ after).isEmpty then none
          else workspace.active.map (renumbered before.length) }, true) := by
  have erased : workspace.tabs.eraseIdx before.length = before ++ after := by
    rw [place, List.eraseIdx_append_of_length_le (Nat.le_refl _), Nat.sub_self]
    rfl
  rw [close, found]
  simp only [erased]

/-- After a tab has been closed the active index is still one of a tab. -/
theorem Orderly.close (orderly : workspace.Orderly) (name : String) :
    (workspace.close name).1.Orderly := by
  cases found : workspace.position? name with
  | none =>
      rw [Workspace.close, found]
      exact orderly
  | some index =>
      obtain ⟨tab, before, after, -, -, place, rfl⟩ := exists_of_position? found
      rw [close_eq workspace found place]
      have size : workspace.tabs.length = (before ++ after).length + 1 := by
        rw [place, List.length_append, List.length_append, List.length_cons, Nat.add_assoc]
      have some : workspace.active ≠ none := by
        rw [Ne, orderly.active_none, place]
        simp
      refine ⟨orderly.nodup_rest place, ?_, ?_⟩
      · change (if _ then _ else _) = none ↔ before ++ after = []
        split
        · rename_i nothing
          exact ⟨fun _ => List.isEmpty_iff.mp nothing, fun _ => rfl⟩
        · rename_i left
          rw [Option.map_eq_none_iff]
          exact ⟨fun nothing => absurd nothing some,
            fun nothing => absurd (List.isEmpty_iff.mpr nothing) left⟩
      · intro place isActive
        change (if _ then _ else _) = _ at isActive
        split at isActive
        · cases isActive
        · rename_i left
          obtain ⟨active, was, rfl⟩ := Option.map_eq_some_iff.mp isActive
          have inside := orderly.active_lt active was
          rw [size] at inside
          apply renumbered_lt _ inside
          · exact List.length_pos_iff.mpr fun nothing => left (List.isEmpty_iff.mpr nothing)
          · rw [List.length_append]
            omega

/-- Editing puts another editor into the active tab, and leaves the others. -/
theorem withEditor_eq {editor : Editor κ} (place : workspace.tabs = before ++ tab :: after)
    (active : workspace.active = some before.length) :
    workspace.withEditor editor =
      { workspace with tabs := before ++ { tab with editor } :: after } := by
  have changed : workspace.tabs.modify before.length (fun tab => { tab with editor }) =
      before ++ { tab with editor } :: after := by
    have inside : before.length < (before ++ tab :: after).length := by simp
    rw [place, List.modify_eq_take_cons_drop inside]
    simp
  rw [withEditor, active]
  simp only [changed]

theorem Orderly.withEditor (orderly : workspace.Orderly) (editor : Editor κ) :
    (workspace.withEditor editor).Orderly := by
  cases active : workspace.active with
  | none =>
      rw [Workspace.withEditor, active]
      exact orderly
  | some index =>
      obtain ⟨before, after, place, rfl⟩ :=
        exists_place (List.getElem?_eq_getElem (orderly.active_lt index active))
      rw [withEditor_eq place active]
      refine ⟨?_, ?_, ?_⟩
      · have distinct := orderly.distinct
        rw [names, place] at distinct
        simpa [names] using distinct
      · simp [active]
      · rintro _ same
        have inside := orderly.active_lt _ same
        rw [place] at inside
        simpa using inside

end Workspace

end EditorCore
