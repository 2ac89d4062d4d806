import Sippycup.Capture.Watchdog

/-! What the watchdog guarantees. As long as it reports nothing, every record it
has inspected left the totals and the windows within the ceilings; once it has
caught up with the file, that is the whole of the captured traffic. -/
namespace Sippycup.Capture
open Sippycup.Python Sippycup.Machine

namespace Record

/-- The time of a record, exactly. -/
def time (r : Record) : Rat := r.seconds + r.fraction / 1000000

/-- The time of a record as the watchdog reads it. -/
def stamp (r : Record) : Double := timestamp r.seconds r.fraction

def isCall (r : Record) : Bool := Capture.isCall r.packet

def expired (y x : Record) : Bool := Capture.expired y.stamp x.stamp

/-- In the second that ends with the packet. -/
def inSecond (last y : Record) : Bool := decide (last.time - 1 ≤ y.time ∧ y.time ≤ last.time)

end Record

/-- The traffic is within the ceilings, in total and in each second that ends with a packet. -/
structure WithinCeilings (maxima : Maxima) (xs : List Record) : Prop where
  packets : xs.length ≤ maxima.packets
  bytes : (xs.map Record.original).sum ≤ maxima.bytes
  calls : (xs.filter Record.isCall).length ≤ maxima.calls
  packetsPerSecond : ∀ last ∈ xs, (xs.filter last.inSecond).length ≤ maxima.packetsPerSecond
  callsPerSecond : ∀ last ∈ xs,
    ((xs.filter Record.isCall).filter last.inSecond).length ≤ maxima.callsPerSecond

/-- No packet between two packets of one second is read as more than a second after the first. -/
def Orderly (xs : List Record) : Prop :=
  ∀ last ∈ xs, SlidingWindow.Orderly Record.expired last.inSecond xs

/-- The counters are those of the records inspected. -/
structure Counted (w : Watchdog) (xs : List Record) : Prop where
  packets : w.packets = xs.length
  byteCount : w.byteCount = (xs.map Record.original).sum
  calls : w.calls = (xs.filter Record.isCall).length
  packetTimes : w.packetTimes = SlidingWindow.slides expired (xs.map Record.stamp)
  callTimes : w.callTimes = SlidingWindow.slides expired ((xs.filter Record.isCall).map Record.stamp)

/-- The ceilings as the watchdog checks them after the last of the records. -/
structure Admitted (maxima : Maxima) (xs : List Record) : Prop where
  packets : xs.length ≤ maxima.packets
  bytes : (xs.map Record.original).sum ≤ maxima.bytes
  calls : (xs.filter Record.isCall).length ≤ maxima.calls
  packetsPerSecond : (SlidingWindow.slides Record.expired xs).length ≤ maxima.packetsPerSecond
  callsPerSecond :
    (SlidingWindow.slides Record.expired (xs.filter Record.isCall)).length ≤ maxima.callsPerSecond

def AdmittedThroughout (maxima : Maxima) (xs : List Record) : Prop :=
  ∀ before r after, xs = before ++ r :: after → Admitted maxima (before ++ [r])

variable {maxima : Maxima} {xs : List Record} {w : Watchdog} {file : List Nat}

theorem slides_stamps (xs : List Record) :
    SlidingWindow.slides expired (xs.map Record.stamp) =
      (SlidingWindow.slides Record.expired xs).map Record.stamp :=
  SlidingWindow.slides_map Record.stamp xs

theorem crossed_none (counted : Counted w xs) (clear : crossed maxima w = none) : Admitted maxima xs := by
  unfold crossed at clear
  split at clear
  · cases clear
  split at clear
  · cases clear
  split at clear
  · cases clear
  split at clear
  · cases clear
  split at clear
  · cases clear
  rename_i packets bytes packetRate calls callRate
  rw [counted.packets] at packets
  rw [counted.byteCount] at bytes
  rw [counted.calls] at calls
  rw [counted.packetTimes, slides_stamps, List.length_map] at packetRate
  rw [counted.callTimes, slides_stamps, List.length_map] at callRate
  exact ⟨Nat.le_of_not_lt packets, Nat.le_of_not_lt bytes, Nat.le_of_not_lt calls,
    Nat.le_of_not_lt packetRate, Nat.le_of_not_lt callRate⟩

theorem counted_start : Counted Watchdog.start [] := ⟨rfl, rfl, rfl, rfl, rfl⟩

theorem counted_count {header : Header} {packet : List Nat} (counted : Counted w xs) :
    Counted (count w header packet) (xs ++ [header.record packet]) where
  packets := by
    rw [List.length_append, ← counted.packets]
    rfl
  byteCount := by
    rw [List.map_append, List.sum_append, ← counted.byteCount]
    rfl
  calls := by
    rw [List.filter_append, List.length_append, ← counted.calls, count]
    by_cases call : isCall packet = true <;>
      simp [call, Record.isCall, Header.record]
  packetTimes := by
    rw [List.map_append, List.map_singleton, SlidingWindow.slides_snoc, ← counted.packetTimes]
    rfl
  callTimes := by
    rw [List.filter_append, List.map_append, count]
    by_cases call : isCall packet = true
    · have kept : [header.record packet].filter Record.isCall = [header.record packet] :=
        List.filter_cons_of_pos call
      rw [kept, List.map_singleton, SlidingWindow.slides_snoc, ← counted.callTimes]
      exact if_pos call
    · have kept : [header.record packet].filter Record.isCall = [] := List.filter_cons_of_neg call
      rw [kept, List.map_nil, List.append_nil, ← counted.callTimes]
      exact if_neg call

theorem admittedThroughout_snoc {r : Record} (before : AdmittedThroughout maxima xs)
    (last : Admitted maxima (xs ++ [r])) : AdmittedThroughout maxima (xs ++ [r]) := by
  intro front x after split
  rcases List.eq_nil_or_concat after with rfl | ⟨middle, newest, rfl⟩
  · rw [← split]
    exact last
  · rw [List.concat_eq_append, ← List.cons_append, ← List.append_assoc] at split
    exact before front x middle (List.append_inj' split rfl).1

/-- What the checks after each record come to for the whole of the traffic. -/
theorem AdmittedThroughout.within (admitted : AdmittedThroughout maxima xs) (orderly : Orderly xs) :
    WithinCeilings maxima xs := by
  have whole : xs = [] ∨ Admitted maxima xs := by
    rcases List.eq_nil_or_concat xs with empty | ⟨front, last, rfl⟩
    · exact .inl empty
    · right
      rw [List.concat_eq_append] at admitted ⊢
      exact admitted front last [] rfl
  have packets (last : Record) (member : last ∈ xs) :
      (xs.filter last.inSecond).length ≤ maxima.packetsPerSecond :=
    SlidingWindow.window_le (orderly last member) fun before r after split =>
      (admitted before r after split).packetsPerSecond
  have calls (last : Record) (member : last ∈ xs) :
      ((xs.filter Record.isCall).filter last.inSecond).length ≤ maxima.callsPerSecond := by
    refine SlidingWindow.window_le ((orderly last member).sublist List.filter_sublist) ?_
    intro before r after split
    obtain ⟨front, back, rfl, first, second⟩ := List.filter_eq_append_iff.mp split
    obtain ⟨skipped, rest, rfl, dropped, call, -⟩ := List.filter_eq_cons_iff.mp second
    have checked := admitted (front ++ skipped) r rest (by simp)
    have calls : (front ++ skipped ++ [r]).filter Record.isCall = before ++ [r] := by
      rw [List.filter_append, List.filter_append, first,
        List.filter_eq_nil_iff.mpr dropped, List.append_nil, List.filter_cons_of_pos call, List.filter_nil]
    rw [← calls]
    exact checked.callsPerSecond
  rcases whole with rfl | whole
  · exact ⟨Nat.zero_le _, Nat.zero_le _, Nat.zero_le _, packets, calls⟩
  · exact ⟨whole.packets, whole.bytes, whole.calls, packets, calls⟩

def violations : List String :=
  ["capture_format_invalid", "capture_record_too_large", "packet_ceiling_exceeded",
    "byte_ceiling_exceeded", "packet_rate_ceiling_exceeded", "call_ceiling_exceeded",
    "call_rate_ceiling_exceeded"]

/-- The thread has inspected the records, which the file starts with. -/
structure Watching (maxima : Maxima) (file : List Nat) (w : Watchdog) (xs : List Record) : Prop where
  started : w.endian = none → xs = [] ∧ w.offset = 24
  known : ∀ endian, w.endian = some endian → endian? file = some endian
  inside : ∀ endian, w.endian = some endian → w.offset ≤ file.length ∧
    Parses endian (file.drop 24) xs (file.drop w.offset)
  counted : Counted w xs
  admitted : w.violation = none → AdmittedThroughout maxima xs
  reason : ∀ reason, w.violation = some reason → reason ∈ violations

/-- A header that the thread holds is that of the next record. -/
def Holds (file : List Nat) (w : Watchdog) : Prop :=
  ∀ header, w.control = .holding header →
    ∃ endian, w.endian = some endian ∧ header? endian (file.drop w.offset) = some header

theorem watching_start (maxima : Maxima) (file : List Nat) : Watching maxima file .start [] where
  started := fun _ => ⟨rfl, rfl⟩
  known := nofun
  inside := nofun
  counted := counted_start
  admitted := fun _ before r after split => by simp at split
  reason := nofun

theorem Watching.withControl (watching : Watching maxima file w xs) (control : Control) :
    Watching maxima file { w with control := control } xs :=
  ⟨watching.started, watching.known, watching.inside,
    ⟨watching.counted.packets, watching.counted.byteCount, watching.counted.calls,
      watching.counted.packetTimes, watching.counted.callTimes⟩,
    watching.admitted, watching.reason⟩

theorem Watching.fail {reason : String} (watching : Watching maxima file w xs)
    (listed : reason ∈ violations) : Watching maxima file (w.fail reason) xs where
  started := watching.started
  known := watching.known
  inside := watching.inside
  counted := ⟨watching.counted.packets, watching.counted.byteCount, watching.counted.calls,
    watching.counted.packetTimes, watching.counted.callTimes⟩
  admitted := fun clear => by
    unfold Watchdog.fail at clear
    cases held : w.violation <;> simp [held] at clear
  reason := fun other found => by
    unfold Watchdog.fail at found
    cases held : w.violation with
    | none =>
      rw [held] at found
      cases found
      exact listed
    | some earlier =>
      rw [held] at found
      exact watching.reason other (held.trans found)

theorem endian?_append {endian : Endian} (more : List Nat) (known : endian? file = some endian) :
    24 ≤ file.length ∧ endian? (file ++ more) = some endian := by
  unfold endian? at known ⊢
  split at known
  · rename_i whole
    rw [if_pos (by rw [List.length_append]; omega), List.take_append_of_le_length whole]
    exact ⟨whole, known⟩
  · cases known

theorem Watching.append (watching : Watching maxima file w xs) (more : List Nat) :
    Watching maxima (file ++ more) w xs where
  started := watching.started
  known := fun endian held => (endian?_append more (watching.known endian held)).2
  inside := fun endian held => by
    obtain ⟨whole, -⟩ := endian?_append more (watching.known endian held)
    obtain ⟨placed, parses⟩ := watching.inside endian held
    refine ⟨by rw [List.length_append]; omega, ?_⟩
    rw [List.drop_append_of_le_length whole, List.drop_append_of_le_length placed]
    exact parses.append more
  counted := watching.counted
  admitted := watching.admitted
  reason := watching.reason

theorem Holds.append (holds : Holds file w) (watching : Watching maxima file w xs) (more : List Nat) :
    Holds (file ++ more) w := by
  intro header held
  obtain ⟨endian, known, found⟩ := holds header held
  refine ⟨endian, known, ?_⟩
  rw [List.drop_append_of_le_length (watching.inside endian known).1]
  exact header?_append more found

theorem readHeader_watching {endian : Endian} (watching : Watching maxima file w xs)
    (known : w.endian = some endian) :
    Watching maxima file (readHeader w endian ((file.drop w.offset).take 16)) xs ∧
      Holds file (readHeader w endian ((file.drop w.offset).take 16)) := by
  unfold readHeader
  rw [header?_take]
  split
  · rename_i header found
    split
    · exact ⟨watching.fail (by decide), nofun⟩
    · refine ⟨watching.withControl _, fun other held => ?_⟩
      cases held
      exact ⟨endian, known, found⟩
  · exact ⟨watching.withControl _, nofun⟩

theorem look_watching (watching : Watching maxima file w xs) :
    Watching maxima file (look w file) xs ∧ Holds file (look w file) := by
  unfold look
  dsimp only
  split
  · rename_i endian known
    exact readHeader_watching watching known
  · rename_i unknown
    obtain ⟨rfl, start⟩ := watching.started unknown
    split
    · exact ⟨watching.withControl _, nofun⟩
    · rename_i whole
      have whole : 24 ≤ file.length := by
        rw [List.length_take] at whole
        omega
      split
      · rename_i endian magic
        have identified : Watching maxima file { w with endian := some endian } [] :=
          { started := nofun
            known := fun other same => by
              cases same
              exact (if_pos whole).trans magic
            inside := fun other _ => by
              rw [start]
              exact ⟨whole, .nil⟩
            counted := ⟨watching.counted.packets, watching.counted.byteCount, watching.counted.calls,
              watching.counted.packetTimes, watching.counted.callTimes⟩
            admitted := watching.admitted
            reason := watching.reason }
        exact readHeader_watching identified rfl
      · exact ⟨watching.fail (by decide), nofun⟩

/-- Complete records that the thread has not inspected. -/
def backlog (file : List Nat) (w : Watchdog) : Nat :=
  match endian? file with
  | some endian => (records endian (file.drop w.offset)).length
  | none => 0

theorem crossed_listed {reason : String} (found : crossed maxima w = some reason) :
    reason ∈ violations := by
  unfold crossed at found
  split at found
  · cases found
    decide
  split at found
  · cases found
    decide
  split at found
  · cases found
    decide
  split at found
  · cases found
    decide
  split at found
  · cases found
    decide
  · cases found

/-- One more record inspected. -/
theorem enforce_watching {header : Header} {packet : List Nat} {endian : Endian}
    (watching : Watching maxima file w xs) (clear : w.violation = none) (known : w.endian = some endian)
    (fits : w.offset + 16 + header.included ≤ file.length)
    (split : splitRecord endian (file.drop w.offset) =
      some (header.record packet, file.drop (w.offset + 16 + header.included))) :
    Watching maxima file (enforce maxima (count w header packet)) (xs ++ [header.record packet]) := by
  have counted : Counted (count w header packet) (xs ++ [header.record packet]) :=
    counted_count watching.counted
  have inside : ∀ other, w.endian = some other → w.offset + 16 + header.included ≤ file.length ∧
      Parses other (file.drop 24) (xs ++ [header.record packet])
        (file.drop (w.offset + 16 + header.included)) := by
    intro other same
    cases known.symm.trans same
    exact ⟨fits, (watching.inside _ known).2.snoc split⟩
  have unknown : w.endian ≠ none := by
    rw [known]
    nofun
  unfold enforce
  split
  · rename_i reason found
    have listed := crossed_listed found
    refine ⟨fun other => absurd other unknown, watching.known, inside,
      ⟨counted.packets, counted.byteCount, counted.calls, counted.packetTimes, counted.callTimes⟩,
      fun other => ?_, fun other held => ?_⟩
    · simp [Watchdog.fail, count, clear] at other
    · simp only [Watchdog.fail, count, clear, Option.none_or, Option.some.injEq] at held
      exact held ▸ listed
  · rename_i found
    refine ⟨fun other => absurd other unknown, watching.known, inside,
      ⟨counted.packets, counted.byteCount, counted.calls, counted.packetTimes, counted.callTimes⟩,
      fun _ => ?_, watching.reason⟩
    exact admittedThroughout_snoc (watching.admitted clear) (crossed_none counted found)

theorem enforce_control : ∀ header, (enforce maxima w).control ≠ .holding header := by
  intro header
  unfold enforce
  split <;> nofun

/-- A turn that ends inspects the next record, unless none is complete. -/
theorem fetch_watching {header : Header} (watching : Watching maxima file w xs) (holds : Holds file w)
    (clear : w.violation = none) (held : w.control = .holding header) :
    ∃ ys, Watching maxima file (fetch maxima w header file) ys ∧ Holds file (fetch maxima w header file) ∧
      (backlog file (fetch maxima w header file) + 1 ≤ backlog file w ∨
        backlog file (fetch maxima w header file) = 0) := by
  obtain ⟨endian, known, found⟩ := holds header held
  have identified := watching.known endian known
  have placed := (watching.inside endian known).1
  unfold fetch
  dsimp only
  split
  · rename_i short
    refine ⟨xs, watching.withControl _, nofun, .inr ?_⟩
    have incomplete : splitRecord endian (file.drop w.offset) = none := by
      rw [splitRecord, found]
      dsimp only
      rw [if_pos]
      rw [List.length_take, List.length_drop] at short
      rw [List.length_drop]
      omega
    rw [backlog, identified]
    dsimp only
    rw [Watchdog.again, records_of_none incomplete]
    rfl
  · rename_i whole
    have fits : w.offset + 16 + header.included ≤ file.length ∨ header.included = 0 := by
      rw [List.length_take, List.length_drop] at whole
      omega
    have present : 16 ≤ (file.drop w.offset).length := by
      unfold header? at found
      split at found
      · assumption
      · cases found
    have fits : w.offset + 16 + header.included ≤ file.length := by
      rw [List.length_drop] at present
      rcases fits with fits | empty
      · exact fits
      · omega
    have split : splitRecord endian (file.drop w.offset) =
        some (header.record ((file.drop (w.offset + 16)).take header.included),
          file.drop (w.offset + 16 + header.included)) := by
      rw [splitRecord, found]
      dsimp only
      rw [if_neg (by rw [List.length_drop]; omega), List.drop_drop, List.drop_drop, Nat.add_assoc]
    refine ⟨_, enforce_watching watching clear known fits split, fun other same =>
      absurd same (enforce_control other), .inl ?_⟩
    have moved : (enforce maxima (count w header ((file.drop (w.offset + 16)).take header.included))).offset =
        w.offset + 16 + header.included := by
      unfold enforce
      split <;> rfl
    rw [backlog, backlog, identified]
    dsimp only
    rw [moved, records_of_split split, List.length_cons]

/-- The invariant of a run: what was inspected, and that a reported violation ends the thread. -/
structure Sound (maxima : Maxima) (s : World) (xs : List Record) : Prop where
  watching : Watching maxima s.file s.watchdog xs
  holds : Holds s.file s.watchdog
  ended : s.watchdog.violation ≠ none → s.watchdog.control = .returned

def World.backlog (s : World) : Nat := Capture.backlog s.file s.watchdog

/-- Turns of the thread that get as far as the packet. -/
def Action.turns : Action → Nat
  | .fetch true => 1
  | _ => 0

theorem readHeader_ended {endian : Endian} {bytes : List Nat} (clear : w.violation = none) :
    (readHeader w endian bytes).violation ≠ none → (readHeader w endian bytes).control = .returned := by
  unfold readHeader
  split
  · split
    · exact fun _ => rfl
    · exact fun reported => absurd clear reported
  · exact fun reported => absurd clear reported

theorem look_ended (clear : w.violation = none) :
    (look w file).violation ≠ none → (look w file).control = .returned := by
  unfold look
  dsimp only
  split
  · exact readHeader_ended clear
  · split
    · exact fun reported => absurd clear reported
    · split
      · exact readHeader_ended clear
      · exact fun _ => rfl

theorem enforce_ended (clear : w.violation = none) :
    (enforce maxima w).violation ≠ none → (enforce maxima w).control = .returned := by
  unfold enforce
  split
  · exact fun _ => rfl
  · exact fun reported => absurd clear reported

theorem fetch_ended {header : Header} (clear : w.violation = none) :
    (fetch maxima w header file).violation ≠ none → (fetch maxima w header file).control = .returned := by
  unfold fetch
  dsimp only
  split
  · exact fun reported => absurd clear reported
  · exact enforce_ended clear

theorem look_offset : (look w file).offset = w.offset := by
  have kept (v : Watchdog) (endian : Endian) (bytes : List Nat) :
      (readHeader v endian bytes).offset = v.offset := by
    unfold readHeader
    split
    · split <;> rfl
    · rfl
  unfold look
  dsimp only
  split
  · exact kept _ _ _
  · split
    · rfl
    · split
      · exact kept _ _ _
      · rfl

theorem Sound.clear {s : World} (sound : Sound maxima s xs) (running : s.watchdog.control ≠ .returned) :
    s.watchdog.violation = none := by
  by_contra reported
  exact running (sound.ended reported)

/-- What one step preserves, and how far it gets. -/
theorem step_sound {s t : World} {action : Action} (sound : Sound maxima s xs)
    (stepped : step maxima s action = some t) : (∃ ys, Sound maxima t ys) ∧
      ((∀ bytes, action ≠ .append bytes) → t.backlog + action.turns ≤ s.backlog ∨ t.backlog = 0) := by
  cases action with
  | append bytes =>
    cases stepped
    refine ⟨⟨xs, sound.watching.append bytes, sound.holds.append sound.watching bytes, sound.ended⟩, ?_⟩
    exact fun other => absurd rfl (other bytes)
  | stop =>
    cases stepped
    exact ⟨⟨xs, sound.watching, sound.holds, sound.ended⟩, fun _ => .inl (Nat.le_refl _)⟩
  | check =>
    unfold step at stepped
    dsimp only at stepped
    split at stepped
    · rename_i head
      cases stepped
      have clear := sound.clear (by rw [head]; nofun)
      refine ⟨⟨xs, sound.watching.withControl _, fun header held => ?_, fun reported => ?_⟩,
        fun _ => .inl (Nat.le_refl _)⟩
      · dsimp only at held
        split at held <;> cases held
      · exact absurd clear reported
    · cases stepped
  | look opens =>
    unfold step at stepped
    dsimp only at stepped
    split at stepped
    · rename_i checked
      cases stepped
      have clear := sound.clear (by rw [checked]; nofun)
      cases opens with
      | true =>
        obtain ⟨watching, holds⟩ := look_watching sound.watching
        refine ⟨⟨xs, watching, holds, look_ended clear⟩, fun _ => .inl ?_⟩
        simp only [World.backlog, backlog, if_true, look_offset]
        exact Nat.le_refl _
      | false =>
        exact ⟨⟨xs, sound.watching.withControl _, nofun, fun reported => absurd clear reported⟩,
          fun _ => .inl (Nat.le_refl _)⟩
    · cases stepped
  | fetch opens =>
    unfold step at stepped
    dsimp only at stepped
    split at stepped
    · rename_i header held
      cases stepped
      have clear := sound.clear (by rw [held]; nofun)
      cases opens with
      | true =>
        obtain ⟨ys, watching, holds, progress⟩ := fetch_watching sound.watching sound.holds clear held
        exact ⟨⟨ys, watching, holds, fetch_ended clear⟩, fun _ => progress⟩
      | false =>
        exact ⟨⟨xs, sound.watching.withControl _, nofun, fun reported => absurd clear reported⟩,
          fun _ => .inl (Nat.le_refl _)⟩
    · cases stepped

/-- What a run preserves. -/
theorem run_sound {s t : World} {actions : List Action} (sound : Sound maxima s xs)
    (ran : run maxima s actions = some t) : (∃ ys, Sound maxima t ys) ∧
      ((∀ bytes, .append bytes ∉ actions) →
        t.backlog + (actions.map Action.turns).sum ≤ s.backlog ∨ t.backlog = 0) := by
  induction actions generalizing s xs with
  | nil =>
    cases ran
    exact ⟨⟨xs, sound⟩, fun _ => .inl (Nat.le_refl _)⟩
  | cons action rest ih =>
    obtain ⟨middle, stepped, ran⟩ := Option.bind_eq_some_iff.mp ran
    obtain ⟨⟨ys, kept⟩, first⟩ := step_sound sound stepped
    obtain ⟨final, later⟩ := ih kept ran
    refine ⟨final, fun ended => ?_⟩
    have first := first fun bytes same => ended bytes (same ▸ List.mem_cons_self)
    have later := later fun bytes member => ended bytes (List.mem_cons_of_mem _ member)
    rw [List.map_cons, List.sum_cons]
    omega

/-- A run that is reported as succeeded had nothing reported by the watchdog. -/
theorem conclude_succeeded {result : RunResult} {violation : Option String} {ending : Ending}
    (listed : ∀ reason, violation = some reason → reason ∈ violations)
    (succeeded : (conclude result violation ending).state = "succeeded") : violation = none := by
  cases violation with
  | none => rfl
  | some reason =>
    exfalso
    have other : (afterTraffic result (some reason)).state ≠ "succeeded" := by
      unfold afterTraffic
      dsimp only
      split
      · intro same
        have member := listed reason rfl
        have same : reason = "succeeded" := same
        rw [same] at member
        exact absurd member (by decide)
      · assumption
    have alive : (afterCapture (afterTraffic result (some reason)) ending.captureDied).state ≠ "succeeded" := by
      unfold afterCapture
      split
      · intro same
        exact absurd same (by decide : "capture_process_died" ≠ "succeeded")
      · exact other
    unfold conclude afterReport at succeeded
    split at succeeded
    · exact alive succeeded
    · split at succeeded
      · exact absurd succeeded (by decide : "cancelled" ≠ "succeeded")
      · split at succeeded
        · exact absurd succeeded (by decide : "report_failed" ≠ "succeeded")
        · exact alive succeeded

/-- A run reported as succeeded stayed within the ceilings and left no record uninspected, if the
thread had a turn for each record left when the capture ended, and the records came in order. -/
theorem succeeded_within_ceilings (maxima : Maxima) (file : List Nat) (live closing : List Action)
    (s t : World) (result : RunResult) (ending : Ending)
    (ran : run maxima (.start file) live = some s) (closed : run maxima s closing = some t)
    (ended : ∀ bytes, .append bytes ∉ closing)
    (turns : s.backlog ≤ (closing.map Action.turns).sum) (orderly : Orderly (traffic t.file))
    (succeeded : (conclude result t.watchdog.violation ending).state = "succeeded") :
    WithinCeilings maxima (traffic t.file) ∧ t.backlog = 0 := by
  have start : Sound maxima (.start file) [] :=
    ⟨watching_start maxima file, nofun, fun reported => absurd rfl reported⟩
  obtain ⟨⟨ys, before⟩, -⟩ := run_sound start ran
  obtain ⟨⟨xs, after⟩, caught⟩ := run_sound before closed
  have caught : t.backlog = 0 := by
    have := caught ended
    omega
  refine ⟨?_, caught⟩
  have clear := conclude_succeeded after.watching.reason succeeded
  have admitted := after.watching.admitted clear
  suffices whole : traffic t.file = xs ∨ traffic t.file = [] by
    rcases whole with whole | empty
    · rw [whole] at orderly ⊢
      exact admitted.within orderly
    · rw [empty] at orderly ⊢
      exact AdmittedThroughout.within (fun before r after split => by simp at split) orderly
  unfold traffic
  cases identified : endian? t.file with
  | none => exact .inr rfl
  | some endian =>
    left
    rw [World.backlog, backlog, identified] at caught
    have caught := List.length_eq_zero_iff.mp caught
    cases known : t.watchdog.endian with
    | none =>
      obtain ⟨rfl, offset⟩ := after.watching.started known
      rw [offset] at caught
      exact caught
    | some other =>
      cases identified.symm.trans (after.watching.known other known)
      have parsed := (after.watching.inside endian known).2.records
      rw [caught, List.append_nil] at parsed
      exact parsed

/-- A capture of two packets of one byte, half a second apart. -/
def twoPackets : List Nat :=
  [0xd4, 0xc3, 0xb2, 0xa1] ++ List.replicate 20 0 ++
    [1, 0, 0, 0, 0, 0, 0, 0, 1, 0, 0, 0, 60, 0, 0, 0, 0] ++
    [1, 0, 0, 0, 32, 161, 7, 0, 1, 0, 0, 0, 60, 0, 0, 0, 0]

def turn : List Action := [.check, .look true, .fetch true]

def afterOne : World :=
  ⟨twoPackets, false, ⟨41, some .little, 1, 60, 0, [.finite 1], [], none, .head⟩⟩

def afterBoth : World :=
  ⟨twoPackets, true, ⟨58, some .little, 2, 120, 0, [.finite 1, .finite (3 / 2)], [], none, .returned⟩⟩

theorem both_packets_inspected :
    WithinCeilings ⟨1, 2, 120, 2, 1⟩ (traffic afterBoth.file) ∧ afterBoth.backlog = 0 :=
  succeeded_within_ceilings ⟨1, 2, 120, 2, 1⟩ twoPackets turn (turn ++ [.stop, .check]) afterOne afterBoth
    ⟨0, "succeeded", 1⟩ ⟨false, none, some 0⟩ (by decide +kernel) (by decide +kernel)
    (fun bytes => by simp [turn]) (by decide +kernel) (by unfold Orderly; decide +kernel)
    (by decide +kernel)

/-- Nothing is inspected when the flag is set before the first turn. -/
theorem unread_backlog_succeeds : ∃ t,
    run ⟨1, 1, 120, 2, 1⟩ (.start []) [.append twoPackets, .stop, .check] = some t ∧
      (conclude ⟨0, "succeeded", 1⟩ t.watchdog.violation ⟨false, none, some 0⟩).state = "succeeded" ∧
      ¬ (WithinCeilings ⟨1, 1, 120, 2, 1⟩ (traffic t.file) ∧ t.backlog = 0) := by
  refine ⟨⟨twoPackets, true, { Watchdog.start with control := .returned }⟩, by decide +kernel,
    by decide +kernel, fun within => ?_⟩
  exact absurd within.1.packets (by decide +kernel)

end Sippycup.Capture
