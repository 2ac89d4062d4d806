import Mathlib.Data.List.Basic

/-! Properties of event traces that grow at their end: an interval that has
been opened and not closed, and events that only happen where a condition on
the trace before them holds. -/
namespace Sippycup.Trace

variable {ε : Type}

/-- Some opening event has not been closed since. -/
def Pending (opens closes : ε → Prop) (events : List ε) : Prop :=
  ∃ before e after, events = before ++ e :: after ∧ opens e ∧ ∀ f ∈ after, ¬ closes f

/-- Every event of the kind `acts` comes at a point where `guard` holds. -/
def Guarded (acts : ε → Prop) (guard : List ε → Prop) (events : List ε) : Prop :=
  ∀ before e after, events = before ++ e :: after → acts e → guard before

variable {opens closes acts : ε → Prop} {guard : List ε → Prop} {events : List ε} {e : ε}

/-- An event of an extended trace is the new one, or was there before. -/
theorem concat_split {before after : List ε} {new : ε}
    (split : events ++ [new] = before ++ e :: after) :
    (before = events ∧ e = new) ∨ ∃ middle, after = middle ++ [new] ∧ events = before ++ e :: middle := by
  rcases List.eq_nil_or_concat after with rfl | ⟨middle, last, rfl⟩
  · obtain ⟨same, last⟩ := List.append_inj' split rfl
    exact .inl ⟨same.symm, (List.singleton_inj.mp last).symm⟩
  · rw [List.concat_eq_append, ← List.cons_append, ← List.append_assoc] at split
    obtain ⟨same, last⟩ := List.append_inj' split rfl
    obtain rfl := List.singleton_inj.mp last
    exact .inr ⟨middle, List.concat_eq_append, same⟩

@[simp] theorem not_pending_nil : ¬ Pending opens closes ([] : List ε) := by
  rintro ⟨before, e, after, split, _⟩
  simp at split

@[simp] theorem guarded_nil : Guarded acts guard ([] : List ε) := by
  intro before e after split
  simp at split

theorem pending_concat :
    Pending opens closes (events ++ [e]) ↔ opens e ∨ Pending opens closes events ∧ ¬ closes e := by
  constructor
  · rintro ⟨before, f, after, split, opening, unclosed⟩
    rcases concat_split split with ⟨_, rfl⟩ | ⟨middle, rfl, rfl⟩
    · exact .inl opening
    · exact .inr ⟨⟨before, f, middle, rfl, opening, fun g member =>
        unclosed g (List.mem_append_left _ member)⟩, unclosed e (by simp)⟩
  · rintro (opening | ⟨⟨before, f, after, rfl, opening, unclosed⟩, still⟩)
    · exact ⟨events, e, [], rfl, opening, by simp⟩
    · refine ⟨before, f, after ++ [e], by simp, opening, fun g member => ?_⟩
      rcases List.mem_append.mp member with earlier | new
      · exact unclosed g earlier
      · rwa [List.mem_singleton.mp new]

theorem guarded_concat :
    Guarded acts guard (events ++ [e]) ↔ Guarded acts guard events ∧ (acts e → guard events) := by
  constructor
  · intro guarded
    refine ⟨fun before f after split act => ?_, guarded events e [] rfl⟩
    exact guarded before f (after ++ [e]) (by simp [split]) act
  · rintro ⟨guarded, new⟩ before f after split act
    rcases concat_split split with ⟨rfl, rfl⟩ | ⟨middle, _, rfl⟩
    · exact new act
    · exact guarded before f middle rfl act

end Sippycup.Trace
