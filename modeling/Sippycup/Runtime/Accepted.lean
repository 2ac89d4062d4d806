import Sippycup.Runtime.Steps

/-! What acceptance of a plan says about the document: each reader, inverted. -/
namespace Sippycup.Runtime
open Sippycup.Python Sippycup.Ip

theorem get?_of_contains {d : Dict} {key : Text} (present : d.contains key = true) :
    d.get? key = some (d.getD key .none) := by
  unfold Dict.contains at present
  unfold Dict.getD
  cases found : d.get? key
  · rw [found] at present
    cases present
  · rfl

theorem contains_of_missing {d : Dict} {names : List String} (complete : missingKeys d names = []) :
    ∀ name ∈ names, d.contains (Text.ofString name) = true := by
  intro name member
  have checked := List.filter_eq_nil_iff.mp complete name member
  simpa using checked

theorem exactKeys_ok {d : Dict} {field : String} {names : List String} {u : Unit}
    (exact_ : exactKeys d field names = .ok u) :
    ∀ name ∈ names, d.get? name = some (d.getD name .none) := by
  unfold exactKeys at exact_
  obtain ⟨extra, _, exact_⟩ := bind_ok.mp exact_
  split at exact_
  · rename_i complete
    exact fun name member => get?_of_contains (contains_of_missing complete.1 name member)
  · obtain ⟨_, _, impossible⟩ := bind_ok.mp exact_
    cases impossible

theorem readNetwork_ok {value : Value} {network : Network} (read : readNetwork value = .ok network) :
    ∃ text, value = .str text ∧ ipNetwork text = .ok network := by
  unfold readNetwork at read
  split at read
  · rename_i text
    split at read
    · rename_i found parsed
      cases read
      exact ⟨text, rfl, parsed⟩
    · cases read
  · cases read

theorem anyUnsupported_ok {items : List Value} (none : anyUnsupported items = .ok false) :
    ∀ item ∈ items, ∃ name ∈ supportedTransports, item = .str (Text.ofString name) := by
  induction items with
  | nil => simp
  | cons item rest ih =>
    rw [anyUnsupported] at none
    obtain ⟨known, found, none⟩ := bind_ok.mp none
    cases known with
    | false => cases none
    | true =>
      intro other member
      rcases List.mem_cons.mp member with rfl | later
      · unfold inSet at found
        split at found
        · simp only [Except.ok.injEq, List.any_eq_true] at found
          obtain ⟨name, supported, same⟩ := found
          exact ⟨name, supported, Value.isText_iff.1 same⟩
        · cases found
      · exact ih none other later

/-- Text that stands for itself: nothing is lost when values are read as texts. -/
theorem map_textOf {items : List Value} (texts : ∀ item ∈ items, ∃ t, item = .str t) :
    (items.map textOf).map Value.str = items := by
  induction items with
  | nil => rfl
  | cons item rest ih =>
    obtain ⟨t, rfl⟩ := texts item List.mem_cons_self
    rw [List.map_cons, List.map_cons, ih fun i member => texts i (List.mem_cons_of_mem _ member)]
    rfl

theorem isIn_texts {value : Value} {items : List Value} (texts : ∀ item ∈ items, ∃ t, item = .str t)
    (inside : value.isIn items = true) : value = .str (textOf value) ∧ textOf value ∈ items.map textOf := by
  simp only [Value.isIn, List.any_eq_true] at inside
  obtain ⟨item, member, same⟩ := inside
  obtain ⟨t, rfl⟩ := texts item member
  cases value with
  | str u =>
    simp only [Value.eq, decide_eq_true_eq] at same
    subst same
    exact ⟨rfl, List.mem_map_of_mem member⟩
  | _ => simp [Value.eq] at same

theorem mem_of_getD {d : Dict} {key : Text} {v : Value} (found : d.get? key = some v) :
    ∃ entry ∈ d, entry.2 = v := by
  induction d with
  | nil => cases found
  | cons entry rest ih =>
    obtain ⟨k, u⟩ := entry
    simp only [Dict.get?] at found
    split at found
    · exact ⟨(k, u), List.mem_cons_self, Option.some.inj found⟩
    · obtain ⟨entry, member, same⟩ := ih found
      exact ⟨entry, List.mem_cons_of_mem _ member, same⟩

/-- The amounts of a dict, as it has them under the names of the quantities. -/
def ReadsAmounts (d : Dict) (keys : List Quantity) (amounts : Amounts) : Prop :=
  ∀ key ∈ keys, d.get? key.name = some (.int (amounts key))

theorem readAmounts_reads {d : Dict} {keys : List Quantity} {positive : Bool}
    (complete : ∀ key ∈ keys, d.get? key.name = some (d.getD key.name .none))
    (numbers : ∀ key ∈ keys, isUint (d.getD key.name .none) positive = true) :
    ReadsAmounts d keys (readAmounts d keys) := by
  intro key member
  rw [complete key member, readAmounts, if_pos member, (isUint_natOf (numbers key member)).1]
  rfl

/-- The authorization section, as the document has it. -/
structure Scope.Reads (document : Dict) (scope : Scope) : Prop where
  matrix : readMatrix document scope.transports = .ok scope.matrix
  section_ : ∃ authorization maxima media : Dict, ∃ networks : List Value,
    document.get? "authorization" = some (.dict authorization) ∧
    authorization.get? "networks" = some (.list networks) ∧
    List.Forall₂ (fun raw network => ∃ text, raw = .str text ∧ ipNetwork text = .ok network)
      networks scope.networks ∧
    authorization.get? "signalingPorts" = some (.list scope.ports) ∧
    authorization.get? "transports" = some (.list scope.transports) ∧
    authorization.get? "credentialRefs" = some (.list scope.credentials) ∧
    authorization.get? "mediaPorts" = some (.dict media) ∧
    media.get? "start" = some (.int scope.media.start) ∧ media.get? "end" = some (.int scope.media.stop) ∧
    authorization.get? "hardMaxima" = some (.dict maxima) ∧ ReadsAmounts maxima ceilingKeys scope.maxima
  ports : ∀ port ∈ scope.ports, isPort port = true
  transports : ∀ item ∈ scope.transports, ∃ name ∈ supportedTransports, item = .str (Text.ofString name)
  credentials : ∀ item ∈ scope.credentials, isName item = true
  positive : ∀ key ∈ ceilingKeys, 0 < scope.maxima key

theorem readMedia_ok {authorization : Dict} {ports : MediaPorts}
    (read : readMedia authorization = .ok ports) :
    ∃ media : Dict, authorization.get? "mediaPorts" = some (.dict media) ∧
      media.get? "start" = some (.int ports.start) ∧ media.get? "end" = some (.int ports.stop) := by
  simp only [readMedia, bind_ok, object_ok, Dict.item_ok, refuse_ok, Bool.or_eq_false_iff,
    Bool.not_eq_false', pure_ok] at read
  obtain ⟨_, found, media, rfl, _, _, start, startFound, stop, stopFound, _, ⟨⟨⟨first, last⟩, _⟩, _⟩,
    rfl⟩ := read
  refine ⟨media, found, ?_, ?_⟩
  · rw [startFound, (isUint_natOf first).1]
    rfl
  · rw [stopFound, (isUint_natOf last).1]
    rfl

theorem readMaxima_ok {authorization : Dict} {amounts : Amounts}
    (read : readMaxima authorization = .ok amounts) :
    ∃ maxima, authorization.get? "hardMaxima" = some (.dict maxima) ∧
      ReadsAmounts maxima ceilingKeys amounts ∧ ∀ key ∈ ceilingKeys, 0 < amounts key := by
  simp only [readMaxima, bind_ok, object_ok, Dict.item_ok, refuse_ok, Bool.not_eq_false', pure_ok,
    List.all_eq_true] at read
  obtain ⟨_, found, maxima, rfl, _, keys, _, numbers, rfl⟩ := read
  have complete : ∀ key ∈ ceilingKeys, maxima.get? key.name = some (maxima.getD key.name .none) :=
    fun key member => exactKeys_ok keys key.name (List.mem_map_of_mem member)
  have uints : ∀ key ∈ ceilingKeys, isUint (maxima.getD key.name .none) true = true := by
    intro key member
    obtain ⟨entry, inside, same⟩ := mem_of_getD (complete key member)
    exact same ▸ numbers entry inside
  refine ⟨maxima, found, readAmounts_reads complete uints, fun key member => ?_⟩
  rw [readAmounts, if_pos member]
  exact (isUint_natOf (uints key member)).2 rfl

theorem readAuthorization_ok {document : Dict} {scope : Scope}
    (read : readAuthorization document = .ok scope) : scope.Reads document := by
  simp only [readAuthorization, bind_ok, object_ok, Dict.item_ok, pure_ok] at read
  obtain ⟨_, found, authorization, rfl, _, _, networks, networksRead, ports, portsRead, transports,
    transportsRead, matrix, matrixRead, credentials, credentialsRead, media, mediaRead, maxima,
    maximaRead, _, _, rfl⟩ := read
  simp only [readNetworks, bind_ok, Dict.item_ok, uniqueArray_ok] at networksRead
  simp only [readPorts, bind_ok, Dict.item_ok, uniqueArray_ok, refuse_ok, Bool.not_eq_false',
    pure_ok, List.all_eq_true] at portsRead
  simp only [readTransports, bind_ok, Dict.item_ok, uniqueArray_ok, refuse_ok, pure_ok]
    at transportsRead
  simp only [readCredentials, bind_ok, Dict.item_ok, uniqueArray_ok, refuse_ok, Bool.not_eq_false',
    pure_ok, List.all_eq_true] at credentialsRead
  obtain ⟨_, networksFound, raw, ⟨rfl, _⟩, parsed⟩ := networksRead
  obtain ⟨_, portsFound, _, ⟨rfl, _⟩, _, portsValid, rfl⟩ := portsRead
  obtain ⟨_, transportsFound, _, ⟨rfl, _⟩, _, transportsValid, _, rfl, rfl⟩ := transportsRead
  obtain ⟨_, credentialsFound, _, ⟨rfl, _⟩, _, credentialsValid, rfl⟩ := credentialsRead
  obtain ⟨mediaPorts, mediaFound, start, stop⟩ := readMedia_ok mediaRead
  obtain ⟨maximaPorts, maximaFound, amounts, positive⟩ := readMaxima_ok maximaRead
  exact {
    matrix := matrixRead
    section_ := ⟨authorization, maximaPorts, mediaPorts, raw, found, networksFound,
      (mapM_ok parsed).imp fun _ _ read => readNetwork_ok read, portsFound, transportsFound,
      credentialsFound, mediaFound, start, stop, maximaFound, amounts⟩
    ports := portsValid
    transports := anyUnsupported_ok transportsValid
    credentials := credentialsValid
    positive := positive }

end Sippycup.Runtime
