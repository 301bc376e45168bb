import EditorCore.Proofs.Manuscript

/-!
Contract: what repeated indent units count as.

Owns:
- a run of indent units as a run of one blank;
- the blanks and the units of a line that starts with such a run;
- `Options.Aligned`, units of spaces that count as one each, as they do in every editor
  that calls lead to.

Does not own: the edits that put or remove units.
-/

namespace EditorCore

/-- The character that a unit repeats. -/
def IndentUnit.blank : IndentUnit → Char
  | tab => '\t'
  | spaces _ => ' '

theorem IndentUnit.chars_eq_replicate (unit : IndentUnit) :
    unit.chars = List.replicate unit.length unit.blank := by
  cases unit <;> rfl

theorem IndentUnit.isBlank_blank (unit : IndentUnit) : isBlank unit.blank = true := by
  cases unit <;> rfl

variable {κ : Type}

/-- A unit of spaces is as wide as a group of spaces that counts as one. -/
def Options.Aligned (options : Options κ) : Prop :=
  ∀ width, options.indentUnit = .spaces width → max width 1 = max options.tabSize 1

namespace Draft

variable {options : Options κ}

/-! ## Runs of units -/

theorem indentation_eq_replicate (options : Options κ) (count : Nat) :
    indentation options count =
      List.replicate (count * options.indentUnit.length) options.indentUnit.blank := by
  rw [indentation, IndentUnit.chars_eq_replicate, List.flatten_replicate_replicate]

theorem indentation_succ (options : Options κ) (count : Nat) :
    indentation options (count + 1) =
      indentation options count ++ options.indentUnit.chars := by
  rw [indentation, List.replicate_succ', List.flatten_append, List.flatten_singleton, indentation]

theorem isBlank_of_mem_indentation {count : Nat} {char : Char}
    (member : char ∈ indentation options count) : isBlank char = true := by
  rw [indentation_eq_replicate] at member
  rw [List.eq_of_mem_replicate member]
  exact options.indentUnit.isBlank_blank

/-- All blanks that follow go on with an indentation. -/
theorem takeWhile_indentation_append (count : Nat) (rest : List Char) :
    (indentation options count ++ rest).takeWhile isBlank =
      indentation options count ++ rest.takeWhile isBlank :=
  List.takeWhile_append_of_pos fun _ => isBlank_of_mem_indentation

theorem takeWhile_indentation (count : Nat) :
    (indentation options count).takeWhile isBlank = indentation options count := by
  rw [← List.append_nil (indentation options count), takeWhile_indentation_append,
    List.takeWhile_nil]

/-- Every unit counts as one, whatever blanks follow. -/
theorem indentUnits_indentation_append (aligned : options.Aligned) (count : Nat)
    (rest : List Char) :
    indentUnits options.tabSize (indentation options count ++ rest) =
      count + indentUnits options.tabSize rest := by
  have tabs : rest.count '\t' ≤ rest.length := List.count_le_length
  rw [indentation_eq_replicate, indentUnits, indentUnits]
  simp only [List.count_append, List.count_replicate, List.length_append, List.length_replicate]
  cases unit : options.indentUnit with
  | tab =>
      simp only [IndentUnit.blank, IndentUnit.length, beq_self_eq_true, if_true, Nat.mul_one]
      rw [show count + rest.length - (count + rest.count '\t') =
        rest.length - rest.count '\t' by omega]
      omega
  | spaces width =>
      have group := aligned width unit
      have other : (' ' == '\t') = false := by decide
      simp only [IndentUnit.blank, IndentUnit.length, other, Bool.false_eq_true, if_false, group]
      rw [Nat.zero_add, Nat.add_sub_assoc tabs, Nat.mul_comm count,
        Nat.mul_add_div (Nat.lt_of_lt_of_le Nat.one_pos (Nat.le_max_right _ _))]
      omega

theorem indentUnits_indentation (aligned : options.Aligned) (count : Nat) :
    indentUnits options.tabSize (indentation options count) = count := by
  have whole := indentUnits_indentation_append aligned count []
  have nothing : indentUnits options.tabSize [] = 0 := by simp [indentUnits]
  rwa [List.append_nil, nothing, Nat.add_zero] at whole

end Draft

/-! ## Options of editors -/

theorem Options.aligned_ofSettings [Coordinate κ] (settings : Settings κ) :
    (Options.ofSettings settings).Aligned := by
  intro width unit
  change settings.indentUnit = .spaces width at unit
  change max width 1 = max (max settings.tabSize 1) 1
  rw [Settings.indentUnit] at unit
  split at unit
  · exact absurd unit nofun
  · obtain rfl := IndentUnit.spaces.inj unit
    omega

theorem Editor.Reachable.aligned [Coordinate κ] {editor : Editor κ}
    (reachable : editor.Reachable) : editor.options.Aligned := by
  induction reachable with
  | created word creates =>
      rw [create_eq creates]
      exact Options.aligned_ofSettings _
  | @stepped previous next _ _ reachable steps inductionHypothesis =>
      obtain ⟨draft, shows⟩ := reachable.shows
      obtain ⟨rules, -⟩ := shows.setup_of_step steps
      have unit : next.options.indentUnit = previous.options.indentUnit :=
        congrArg (fun rules : Options Unit => rules.indentUnit) rules
      have tabSize : next.options.tabSize = previous.options.tabSize :=
        congrArg (fun rules : Options Unit => rules.tabSize) rules
      rw [Options.Aligned, unit, tabSize]
      exact inductionHypothesis

end EditorCore
