import Sippycup.Learn.Identity

/-! The semantic oracle does not depend on the order of an oracle's arrays, and what
the semantic identity of a pack forgets. -/
namespace Sippycup.Learn
open Sippycup.Python

section order

/-- Oracles that differ in the order of their arrays only. -/
structure Shuffled (oracle other : JsonDict) : Prop where
  verdict : other.get? "verdict" = oracle.get? "verdict"
  arrays : ∀ key ∈ (["dialogs", "streams", "assertions"] : List Text), ∃ xs ys,
    oracle.get? key = some (.list xs) ∧ other.get? key = some (.list ys) ∧ xs.Perm ys

/-- Equal up to the order of keys: lists item by item, assertions under their identifiers. -/
structure SemanticOracle.Alike (a b : SemanticOracle) : Prop where
  verdict : a.verdict = b.verdict
  dialogs : List.Forall₂ JsonValue.Same a.dialogs b.dialogs
  streams : List.Forall₂ JsonValue.Same a.streams b.streams
  assertions : a.assertions.Perm b.assertions

/-- Both computations fail in the same way, or both return. -/
def Agree {α : Type} (R : α → α → Prop) (x y : Result α) : Prop :=
  match x with
  | .ok a => ∃ b, y = .ok b ∧ R a b
  | .error raised => y = .error raised

theorem Agree.bind {α β : Type} {R : α → α → Prop} {S : β → β → Prop} {x y : Result α} {f g : α → Result β}
    (agree : Agree R x y) (next : ∀ a b, R a b → Agree S (f a) (g b)) : Agree S (x >>= f) (y >>= g) := by
  unfold Agree at agree
  split at agree
  · obtain ⟨b, rfl, related⟩ := agree
    exact next _ b related
  · subst agree
    rfl

def asDict? : JsonValue → Option JsonDict
  | .dict d => some d
  | _ => none

theorem objects?_list (items : List JsonValue) :
    objects? (.list items) =
      if items.all fun item => (asDict? item).isSome then some (items.filterMap asDict?) else none := by
  induction items with
  | nil => rfl
  | cons item rest ih =>
    rw [objects?] at ih ⊢
    rw [List.mapM_cons, ih]
    cases item with
    | dict d =>
      by_cases all : (rest.all fun item => (asDict? item).isSome) = true
      · rw [if_pos all, if_pos (by rw [List.all_cons, all]; rfl)]
        rfl
      · rw [if_neg all, if_neg (by rw [List.all_cons]; exact all)]
        rfl
    | _ => rfl

theorem readObjects_perm {xs ys : List JsonValue} (perm : xs.Perm ys) (message : String) :
    Agree List.Perm (readObjects (.list xs) message) (readObjects (.list ys) message) := by
  rw [readObjects, readObjects, objects?_list, objects?_list, perm.all_eq]
  by_cases all : (ys.all fun item => (asDict? item).isSome) = true
  · rw [if_pos all, if_pos all]
    exact ⟨_, rfl, perm.filterMap asDict?⟩
  · rw [if_neg all, if_neg all]
    exact rfl

theorem sortByText_perm {xs ys : List JsonValue} (perm : xs.Perm ys) :
    List.Forall₂ JsonValue.Same (sortByText xs) (sortByText ys) := by
  have sorted : ∀ items : List JsonValue, (sortByText items).map JsonValue.canonical =
      (items.map JsonValue.canonical).insertionSort (· ≤ ·) := fun items =>
    List.map_insertionSort (fun a b : JsonValue => a.canonical ≤ b.canonical) (· ≤ ·) JsonValue.canonical
      items fun _ _ _ _ => Iff.rfl
  have same : (sortByText xs).map JsonValue.canonical = (sortByText ys).map JsonValue.canonical := by
    rw [sorted, sorted]
    refine List.Perm.eq_of_pairwise' (List.pairwise_insertionSort _ _) (List.pairwise_insertionSort _ _) ?_
    exact (List.perm_insertionSort _ _).trans ((perm.map _).trans (List.perm_insertionSort _ _).symm)
  rw [← List.forall₂_eq_eq_eq, List.forall₂_map_left_iff, List.forall₂_map_right_iff] at same
  exact same.imp fun _ _ => JsonValue.canonical_injective

theorem readAssertions_perm {xs ys : List JsonDict} (perm : xs.Perm ys) :
    Agree List.Perm (readAssertions xs) (readAssertions ys) := by
  have named := perm.filterMap namedAssertion?
  have unique : (JsonDict.keys (xs.filterMap namedAssertion?)).Nodup ↔
      (JsonDict.keys (ys.filterMap namedAssertion?)).Nodup := (named.map Prod.fst).nodup_iff
  simp only [readAssertions, unique, named.length_eq, perm.length_eq]
  split
  · exact ⟨_, rfl, named⟩
  · exact rfl

/-- Whatever the order of the arrays, an oracle fails in the same way or is read to the same. -/
theorem semanticOracle_shuffled {oracle other : JsonDict} (shuffled : Shuffled oracle other) :
    Agree SemanticOracle.Alike (semanticOracle oracle) (semanticOracle other) := by
  have read : ∀ key ∈ (["dialogs", "streams", "assertions"] : List Text), ∀ message,
      Agree List.Perm ((oracle.item key : Result JsonValue) >>= fun value => readObjects value message)
        ((other.item key : Result JsonValue) >>= fun value => readObjects value message) := by
    intro key member message
    obtain ⟨xs, ys, held, held', perm⟩ := shuffled.arrays key member
    rw [JsonDict.item_ok.mpr held, JsonDict.item_ok.mpr held']
    exact readObjects_perm perm message
  have unfolded : ∀ d : JsonDict, semanticOracle d =
      (((d.item "dialogs" : Result JsonValue) >>= fun value =>
        readObjects value "oracle dialogs must contain objects") >>= fun dialogs =>
      ((d.item "streams" : Result JsonValue) >>= fun value =>
        readObjects value "oracle streams must contain objects") >>= fun streams =>
      ((d.item "assertions" : Result JsonValue) >>= fun value =>
        readObjects value "oracle assertions must contain objects") >>= fun assertions =>
      readAssertions assertions >>= fun named => (d.item "verdict" : Result JsonValue) >>= fun verdict =>
        pure ⟨verdict, sortByText (dialogs.map projectOracleDialog), sortByText (streams.map projectStream),
          named⟩) := by
    intro d
    simp only [semanticOracle, bind_assoc]
  rw [unfolded, unfolded]
  refine (read "dialogs" (by decide) _).bind fun dialogs dialogs' samedialogs => ?_
  refine (read "streams" (by decide) _).bind fun streams streams' sameStreams => ?_
  refine (read "assertions" (by decide) _).bind fun assertions assertions' sameAssertions => ?_
  refine (readAssertions_perm sameAssertions).bind fun named named' sameNamed => ?_
  have verdict : (other.item "verdict" : Result JsonValue) = oracle.item "verdict" := by
    rw [JsonDict.item, shuffled.verdict, JsonDict.item]
  rw [verdict]
  rcases (oracle.item "verdict" : Result JsonValue) with raised | verdict
  · exact rfl
  · exact ⟨_, rfl, rfl, sortByText_perm (samedialogs.map _), sortByText_perm (sameStreams.map _), sameNamed⟩

end order

section identity

/-- What the semantic identity of a behavior pack forgets: the names of placeholders outside
`dialogFields`, the origins of the two clocks, and the order of the oracle's arrays. -/
theorem semantic_identity :
    (∀ (model : JsonDict) (ρ : Renaming) (c d : Int), (JsonValue.dict model).Proper →
      InjectiveOn (modelNames model) ρ →
      semanticModel (transformModel ρ c d model) = semanticModel model) ∧
    (∀ (model other : JsonDict) (a b x y : SemanticModel), (JsonValue.dict model).Proper →
      (JsonValue.dict other).Proper → semanticModel model = .ok a → semanticModel other = .ok b →
      comparedFields model = .ok x → comparedFields other = .ok y → x.NoPorts → y.NoPorts →
      a.Equal b → ∃ ρ c d z, (∀ kind, Function.Injective (ρ kind)) ∧
        comparedFields (transformModel ρ c d model) = .ok z ∧ z.Equal y) ∧
    ∀ oracle other : JsonDict, Shuffled oracle other →
      Agree SemanticOracle.Alike (semanticOracle oracle) (semanticOracle other) := by
  refine ⟨fun model ρ c d proper injective => semanticModel_transform proper injective, ?_,
    fun oracle other shuffled => semanticOracle_shuffled shuffled⟩
  intro model other a b x y proper proper' run run' fields fields' noPorts noPorts' equal
  exact semanticModel_recovered proper proper' run run' equal fields fields' noPorts noPorts'

def exampleTransaction (tag : String) (earliest latest : Int) : JsonValue :=
  .dict [
    JsonDict.entry "method" (.str "INVITE"), JsonDict.entry "direction" (.str "uac"),
    JsonDict.entry "flow" (placeholderValue "tag" tag),
    JsonDict.entry "timingWindowMs"
      (.dict [JsonDict.entry "earliest" (.int earliest), JsonDict.entry "latest" (.int latest)])]

def exampleModel (state : JsonValue) (tag : String) (earliest latest : Int) : JsonDict := [
  JsonDict.entry "dialog" (.dict [JsonDict.entry "state" state]),
  JsonDict.entry "transactions" (.list [exampleTransaction tag earliest latest]),
  JsonDict.entry "sdpRevisions" (.list [])]

def exampleOracle (dialogs : List JsonValue) : JsonDict := [
  JsonDict.entry "dialogs" (.list dialogs), JsonDict.entry "streams" (.list []),
  JsonDict.entry "assertions" (.list []), JsonDict.entry "verdict" (.str "pass")]

def appendName (_ raw : Text) : Text := raw ++ ("x" : Text)

theorem appendName_injective (kind : Text) : Function.Injective (appendName kind) := by
  intro a b same
  exact Text.ext (List.append_cancel_right (congrArg Text.codes same))

theorem exampleModel_proper (state tag : String) (earliest latest : Int) :
    (JsonValue.dict (exampleModel (.str state) tag earliest latest)).Proper := by
  have keys : (["dialog", "transactions", "sdpRevisions"].map Text.ofString).Nodup ∧
      (["state"].map Text.ofString).Nodup ∧
      (["method", "direction", "flow", "timingWindowMs"].map Text.ofString).Nodup ∧
      (["type", "name"].map Text.ofString).Nodup ∧ (["earliest", "latest"].map Text.ofString).Nodup := by
    decide
  obtain ⟨model, dialog, transaction, placeholder, window⟩ := keys
  refine ⟨model, ⟨⟨dialog, trivial, trivial⟩, ⟨⟨transaction, ?_⟩, trivial⟩, trivial, trivial⟩⟩
  exact ⟨trivial, trivial, ⟨placeholder, trivial, trivial, trivial⟩, ⟨window, trivial, trivial, trivial⟩,
    trivial⟩

theorem exampleModel_noPorts (state tag : String) (earliest latest : Int) {x : SemanticModel}
    (fields : comparedFields (exampleModel (.str state) tag earliest latest) = .ok x) : x.NoPorts := by
  obtain rfl := Except.ok.inj (fields.symm.trans rfl)
  have bound : ∀ key ∈ timingFields, ∀ n, NoPorts key (.int n) := by
    intro key member n
    have plain : ∀ key ∈ timingFields, endsWithPort key = false := by decide
    rw [NoPorts, ephemeralPort, plain key member]
    · rfl
    all_goals simp
  refine ⟨List.forall_mem_singleton.mpr ?_, fun _ member => absurd member (List.not_mem_nil),
    fun _ member => absurd member (List.not_mem_nil)⟩
  exact ⟨rfl, rfl, ⟨rfl, rfl, trivial⟩, ⟨bound _ (by decide) _, bound _ (by decide) _, trivial⟩, rfl,
    trivial, trivial⟩

theorem exampleModel_identity :
    semanticModel (transformModel appendName 5 7 (exampleModel (.str "completed") "a" 1 3)) =
      semanticModel (exampleModel (.str "completed") "a" 1 3) ∧
    (∃ ρ c d z, (∀ kind, Function.Injective (ρ kind)) ∧
      comparedFields (transformModel ρ c d (exampleModel (.str "completed") "a" 1 3)) = .ok z ∧
      ∃ y, comparedFields (exampleModel (.str "completed") "b" 11 13) = .ok y ∧ z.Equal y) ∧
    Agree SemanticOracle.Alike
      (semanticOracle (exampleOracle [.dict [JsonDict.entry "state" (.int 1)], .dict []]))
      (semanticOracle (exampleOracle [.dict [], .dict [JsonDict.entry "state" (.int 1)]])) := by
  obtain ⟨forward, backward, order⟩ := semantic_identity
  refine ⟨forward _ _ _ _ (exampleModel_proper _ _ _ _) fun kind _ _ _ _ same => appendName_injective kind same,
    ?_, ?_⟩
  · have recovered := backward (exampleModel (.str "completed") "a" 1 3)
      (exampleModel (.str "completed") "b" 11 13) _ _ _ _ (exampleModel_proper _ _ _ _)
      (exampleModel_proper _ _ _ _) rfl rfl rfl rfl (exampleModel_noPorts _ _ _ _ rfl)
      (exampleModel_noPorts _ _ _ _ rfl) ⟨by decide, by decide, by decide, by decide⟩
    obtain ⟨ρ, c, d, z, injective, read, equal⟩ := recovered
    exact ⟨ρ, c, d, z, injective, read, _, rfl, equal⟩
  · refine order _ _ ⟨rfl, ?_⟩
    have nil : ∀ xs : List JsonValue, ∃ ys, some (JsonValue.list xs) = some (.list ys) ∧ xs.Perm ys :=
      fun xs => ⟨xs, rfl, .refl xs⟩
    simp only [List.forall_mem_cons]
    exact ⟨⟨_, _, rfl, rfl, .swap _ _ _⟩, ⟨_, _, rfl, rfl, .refl _⟩, ⟨_, _, rfl, rfl, .refl _⟩,
      fun _ member => absurd member (List.not_mem_nil)⟩

/-- The state of a dialog is compared as it stands, a placeholder too. -/
theorem renaming_reaches_dialog : (∀ kind, Function.Injective (appendName kind)) ∧ ∃ a b,
    semanticModel (exampleModel (placeholderValue "tag" "a") "a" 1 3) = .ok a ∧
    semanticModel (renameDict appendName (exampleModel (placeholderValue "tag" "a") "a" 1 3)) = .ok b ∧
    ¬ a.Equal b := by
  refine ⟨appendName_injective, _, _, rfl, rfl, fun equal => ?_⟩
  exact absurd equal.dialog (by decide)

end identity

end Sippycup.Learn
