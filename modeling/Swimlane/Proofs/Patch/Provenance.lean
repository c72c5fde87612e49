import Swimlane.Proofs.Patch.Skips

/-! Where the lines of an edited text come from: beside a run goes a ledger of the lines, with the
origin of each and what every operation did to them. -/
namespace Swimlane.Patch

open Text

/-- A line of the text that is edited, or a line that an operation of the batch put in. -/
inductive Origin
  | given (number : Nat)
  | inserted (operation : Nat)
  deriving DecidableEq, Repr

def Origin.isGiven : Origin → Bool
  | .given _ => true
  | .inserted _ => false

structure TracedLine where
  origin : Origin
  text : Text
  deriving DecidableEq, Repr

/-- What an operation did to the lines. -/
inductive Event
  | nothing
  | inserted (text : Text)
  | removed (origin : Origin)
  | rewritten (origin : Origin) (text : Text)
  deriving DecidableEq, Repr

namespace Event

/-- The line that was taken out or written anew. -/
def touched? : Event → Option Origin
  | .removed origin | .rewritten origin _ => some origin
  | _ => none

def insertedText? : Event → Option Text
  | .inserted text => some text
  | _ => none

def isRemoval : Event → Bool
  | .removed _ => true
  | _ => false

/-- The text that a line was given when it was written anew. -/
def newText? (origin : Origin) : Event → Option Text
  | .rewritten other text => if other = origin then some text else none
  | _ => none

/-- Whether the log tells what was done. -/
def Recorded : Event → Outcome → Prop
  | .nothing, .skipped _ => True
  | .inserted _, .applied (.addedNode _ _ _) | .inserted _, .applied (.addedEdge _ _ _) => True
  | .removed _, .applied (.removedNode _) | .removed _, .applied (.removedEdge _ _) => True
  | .rewritten _ _, .applied (.updatedNode _ _) => True
  | _, _ => False

end Event

/-- An applied operation that puts in a line. -/
def Outcome.inserts : Outcome → Bool
  | .applied (.addedNode _ _ _) | .applied (.addedEdge _ _ _) => true
  | _ => false

/-- An applied operation that takes out a line. -/
def Outcome.removes : Outcome → Bool
  | .applied (.removedNode _) | .applied (.removedEdge _ _) => true
  | _ => false

/-- The lines as they stand after some operations, and what each of these did. -/
structure Ledger where
  lines : List TracedLine
  events : List Event
  deriving DecidableEq, Repr

namespace Ledger

def ofLines (given : List Text) : Ledger where
  lines := given.zipIdx.map fun (line, number) => ⟨.given number, line⟩
  events := []

def texts (ledger : Ledger) : List Text := ledger.lines.map TracedLine.text

/-- Enters what one more operation does to the lines. -/
def enter (ledger : Ledger) : Option Splice → Ledger
  | none => ⟨ledger.lines, ledger.events ++ [.nothing]⟩
  | some (.insert position text) =>
    ⟨ledger.lines.take position.toNat ++
      ⟨.inserted ledger.events.length, text⟩ :: ledger.lines.drop position.toNat,
      ledger.events ++ [.inserted text]⟩
  | some (.remove position) =>
    match ledger.lines[position.toNat]? with
    | some line =>
      ⟨ledger.lines.eraseIdx position.toNat, ledger.events ++ [.removed line.origin]⟩
    | none => ⟨ledger.lines, ledger.events ++ [.nothing]⟩
  | some (.rewrite position text) =>
    match ledger.lines[position.toNat]? with
    | some line =>
      ⟨ledger.lines.set position.toNat ⟨line.origin, text⟩,
        ledger.events ++ [.rewritten line.origin text]⟩
    | none => ⟨ledger.lines, ledger.events ++ [.nothing]⟩

end Ledger

/-- The ledger after some operations on a session whose lines it holds. -/
def Session.record (session : Session) (ledger : Ledger) : List Operation → Ledger
  | [] => ledger
  | operation :: rest =>
    match session.step operation with
    | .ok (after, _) => after.record (ledger.enter (session.effect? operation)) rest
    | .error _ => ledger

/-- A line of the text that no operation took out or wrote anew. -/
def Untouched (events : List Event) (line : TracedLine) : Bool :=
  line.origin.isGiven && events.all fun event : Event => event.touched? ≠ some line.origin

/-- The text that a line had at first. -/
def firstText? (given : List Text) (events : List Event) : Origin → Option Text
  | .given number => given[number]?
  | .inserted operation => events[operation]?.bind Event.insertedText?

/-- The text that a line was given last. -/
def lastText? (given : List Text) (events : List Event) (origin : Origin) : Option Text :=
  (events.reverse.findSome? (Event.newText? origin)).or (firstText? given events origin)

/-- A ledger accounts for all lines of a text that was edited, as the entries of the log tell. -/
structure Provenance (given : List Text) (entries : List Entry) (ledger : Ledger) : Prop where
  recorded : List.Forall₂ (fun event entry => event.Recorded entry.outcome) ledger.events entries
  kept : ledger.lines.filter (Untouched ledger.events) =
    (Ledger.ofLines given).lines.filter (Untouched ledger.events)
  distinct : (ledger.lines.map TracedLine.origin).Nodup
  present : ∀ origin, origin ∈ ledger.lines.map TracedLine.origin ↔
    (firstText? given ledger.events origin).isSome ∧ .removed origin ∉ ledger.events
  texts : ∀ line ∈ ledger.lines, lastText? given ledger.events line.origin = some line.text
  later : ∀ (number : Nat) (event : Event) (operation : Nat), ledger.events[number]? = some event →
    event.touched? = some (.inserted operation) → operation < number
  count : ledger.lines.length + entries.countP (·.outcome.removes) =
    given.length + entries.countP (·.outcome.inserts)

variable {given lines : List Text} {text : Text} {origin : Origin}
  {ledger next : Ledger} {event : Event} {entries more : List Entry} {entry : Entry}
  {splice : Splice} {change : Change} {session last : Session} {operations : List Operation}

/-- What one operation does to a ledger. -/
inductive Writes (ledger : Ledger) : Event → Ledger → Prop
  | nothing : Writes ledger .nothing ⟨ledger.lines, ledger.events ++ [.nothing]⟩
  | inserted {above below : List TracedLine} (text : Text) (hl : ledger.lines = above ++ below) :
      Writes ledger (.inserted text) ⟨above ++ ⟨.inserted ledger.events.length, text⟩ :: below,
        ledger.events ++ [.inserted text]⟩
  | removed {above below : List TracedLine} {line : TracedLine}
      (hl : ledger.lines = above ++ line :: below) :
      Writes ledger (.removed line.origin)
        ⟨above ++ below, ledger.events ++ [.removed line.origin]⟩
  | rewritten {above below : List TracedLine} {line : TracedLine} (text : Text)
      (hl : ledger.lines = above ++ line :: below) :
      Writes ledger (.rewritten line.origin text) ⟨above ++ ⟨line.origin, text⟩ :: below,
        ledger.events ++ [.rewritten line.origin text]⟩

theorem events_of_writes (h : Writes ledger event next) : next.events = ledger.events ++ [event] := by
  cases h <;> rfl

theorem split_ledger {number : Nat} (h : number < ledger.texts.length) :
    ∃ hlt : number < ledger.lines.length, ledger.lines =
      ledger.lines.take number ++ ledger.lines[number] :: ledger.lines.drop (number + 1) := by
  have hlt : number < ledger.lines.length := by simpa [Ledger.texts] using h
  exact ⟨hlt, by rw [List.cons_getElem_drop_succ, List.take_append_drop]⟩

/-- A change that finds its line is entered with what the log tells of it. -/
theorem writes_enter (hl : ledger.texts = lines) (hf : splice.Finds lines)
    (ht : change.Tells splice) : ∃ event, Writes ledger event (ledger.enter (some splice)) ∧
      event.Recorded (.applied change) ∧
      (ledger.enter (some splice)).texts = splice.apply lines := by
  subst hl
  cases splice with
  | insert position text =>
    refine ⟨_, .inserted text (List.take_append_drop position.toNat ledger.lines).symm, ?_, ?_⟩
    · cases change <;> trivial
    · simp [Ledger.enter, Ledger.texts, Splice.apply, insertAt, List.map_take, List.map_drop]
  | remove position =>
    obtain ⟨hlt, hsplit⟩ := split_ledger hf
    have henter : ledger.enter (some (.remove position)) =
        ⟨ledger.lines.take position.toNat ++ ledger.lines.drop (position.toNat + 1),
          ledger.events ++ [.removed ledger.lines[position.toNat].origin]⟩ := by
      simp [Ledger.enter, hlt, List.eraseIdx_eq_take_drop_succ]
    rw [henter]
    refine ⟨_, .removed hsplit, ?_, ?_⟩
    · cases change <;> trivial
    · simp [Ledger.texts, Splice.apply, List.eraseIdx_eq_take_drop_succ, List.map_take,
        List.map_drop]
  | rewrite position text =>
    obtain ⟨hlt, hsplit⟩ := split_ledger hf
    have henter : ledger.enter (some (.rewrite position text)) =
        ⟨ledger.lines.take position.toNat ++ ⟨ledger.lines[position.toNat].origin, text⟩ ::
          ledger.lines.drop (position.toNat + 1),
          ledger.events ++ [.rewritten ledger.lines[position.toNat].origin text]⟩ := by
      simp [Ledger.enter, hlt, List.set_eq_take_append_cons_drop]
    rw [henter]
    refine ⟨_, .rewritten text hsplit, ?_, ?_⟩
    · cases change <;> trivial
    · simp [Ledger.texts, Splice.apply, List.set_eq_take_append_cons_drop, List.map_take,
        List.map_drop, hlt]

theorem filter_middle {p : TracedLine → Bool} {line : TracedLine} (above below : List TracedLine)
    (h : p line = false) : (above ++ line :: below).filter p = (above ++ below).filter p := by
  rw [List.filter_append, List.filter_cons_of_neg (by simp [h]), List.filter_append]

theorem untouched_concat (events : List Event) (event : Event) (line : TracedLine) :
    Untouched (events ++ [event]) line =
      (Untouched events line && decide (event.touched? ≠ some line.origin)) := by
  simp [Untouched, Bool.and_assoc]

/-- The lines that are left untouched are the same as ever. -/
theorem kept_writes {lines : List TracedLine} (h : Writes ledger event next)
    (hk : ledger.lines.filter (Untouched ledger.events) = lines.filter (Untouched ledger.events)) :
    next.lines.filter (Untouched next.events) = lines.filter (Untouched next.events) := by
  have hmore : ∀ lines : List TracedLine, lines.filter (Untouched next.events) =
      (lines.filter (Untouched ledger.events)).filter
        fun line => decide (event.touched? ≠ some line.origin) := by
    intro lines
    rw [List.filter_filter, events_of_writes h]
    apply List.filter_congr
    intro line _
    rw [untouched_concat, Bool.and_comm]
  have hsame : next.lines.filter (Untouched next.events) =
      ledger.lines.filter (Untouched next.events) := by
    cases h with
    | nothing => rfl
    | @inserted above below text hl =>
      rw [hl, filter_middle above below]
      simp [Untouched, Origin.isGiven]
    | @removed above below line hl =>
      rw [hl, filter_middle above below]
      simp [untouched_concat, Event.touched?]
    | @rewritten above below line text hl =>
      rw [hl, filter_middle above below, filter_middle above below]
      · simp [untouched_concat, Event.touched?]
      · simp [untouched_concat, Event.touched?]
  rw [hsame, hmore, hmore lines, hk]

theorem firstText?_concat (given : List Text) (events : List Event) (event : Event)
    (origin : Origin) : firstText? given (events ++ [event]) origin =
      if origin = .inserted events.length then event.insertedText?
      else firstText? given events origin := by
  cases origin with
  | given number => simp [firstText?]
  | inserted operation =>
    simp only [firstText?, Origin.inserted.injEq]
    split
    · next he => simp [he]
    · next hne =>
      rcases Nat.lt_or_gt_of_ne hne with hlt | hgt
      · rw [List.getElem?_append_left hlt]
      · rw [List.getElem?_eq_none_iff.2 (Nat.le_of_lt hgt), List.getElem?_eq_none_iff.2]
        rw [List.length_append, List.length_singleton]
        omega

/-- The next operation is not yet the origin of any line. -/
theorem Provenance.not_mem_next (h : Provenance given entries ledger) :
    .inserted ledger.events.length ∉ ledger.lines.map TracedLine.origin := by
  rw [h.present]
  simp [firstText?]

theorem Provenance.touched_ne (h : Provenance given entries ledger) (hm : event ∈ ledger.events) :
    event.touched? ≠ some (.inserted ledger.events.length) := by
  intro htouched
  obtain ⟨number, hlt, hnumber⟩ := List.getElem_of_mem hm
  have hlater := h.later number event _ (by rw [← hnumber]; simp [hlt]) htouched
  omega

theorem distinct_writes (h : Provenance given entries ledger) (hw : Writes ledger event next) :
    (next.lines.map TracedLine.origin).Nodup := by
  have hdistinct := h.distinct
  cases hw with
  | nothing => exact hdistinct
  | inserted text hl =>
    have hnew := h.not_mem_next
    rw [hl] at hdistinct hnew
    simp only [List.map_append, List.map_cons] at hdistinct hnew ⊢
    rw [List.nodup_middle, List.nodup_cons]
    exact ⟨hnew, hdistinct⟩
  | removed hl =>
    rw [hl] at hdistinct
    simp only [List.map_append, List.map_cons] at hdistinct ⊢
    rw [List.nodup_middle, List.nodup_cons] at hdistinct
    exact hdistinct.2
  | rewritten text hl =>
    rw [hl] at hdistinct
    simpa only [List.map_append, List.map_cons] using hdistinct

/-- A line comes with an insertion, and goes when it is taken out. -/
theorem mem_origins_writes (h : Provenance given entries ledger) (hw : Writes ledger event next)
    (origin : Origin) : origin ∈ next.lines.map TracedLine.origin ↔
      origin ∈ ledger.lines.map TracedLine.origin ∧ event ≠ .removed origin ∨
        origin = .inserted ledger.events.length ∧ event.insertedText?.isSome := by
  have hdistinct := h.distinct
  cases hw with
  | nothing => simp [Event.insertedText?]
  | inserted text hl =>
    simp only [hl, List.map_append, List.map_cons, List.mem_append, List.mem_cons,
      Event.insertedText?, ne_eq, reduceCtorEq, not_false_eq_true, and_true, Option.isSome_some]
    tauto
  | @removed above below line hl =>
    rw [hl, List.map_append, List.map_cons, List.nodup_middle, List.nodup_cons] at hdistinct
    simp only [hl, List.map_append, List.map_cons, List.mem_append, List.mem_cons, ne_eq,
      Event.removed.injEq, Event.insertedText?, Option.isSome_none, Bool.false_eq_true, and_false,
      or_false] at hdistinct ⊢
    constructor
    · intro hm
      refine ⟨hm.imp_right Or.inr, ?_⟩
      rintro rfl
      exact hdistinct.1 hm
    · rintro ⟨hm | rfl | hm, hne⟩
      · exact Or.inl hm
      · exact absurd rfl hne
      · exact Or.inr hm
  | rewritten text hl => simp [hl, Event.insertedText?]

theorem present_writes (h : Provenance given entries ledger) (hw : Writes ledger event next)
    (origin : Origin) : origin ∈ next.lines.map TracedLine.origin ↔
      (firstText? given next.events origin).isSome ∧ .removed origin ∉ next.events := by
  rw [mem_origins_writes h hw, events_of_writes hw, firstText?_concat, List.mem_append,
    List.mem_singleton, not_or, h.present]
  by_cases ho : origin = .inserted ledger.events.length
  · subst ho
    have hfirst : firstText? given ledger.events (.inserted ledger.events.length) = none := by
      simp [firstText?]
    have hnot : .removed (.inserted ledger.events.length) ∉ ledger.events :=
      fun hm => h.touched_ne hm rfl
    simp only [hfirst, Option.isSome_none, Bool.false_eq_true, false_and, false_or, true_and,
      if_true]
    constructor
    · intro hinserted
      refine ⟨hinserted, hnot, ?_⟩
      rintro rfl
      simp [Event.insertedText?] at hinserted
    · exact fun hall => hall.1
  · simp only [ho, false_and, or_false, if_false, and_assoc, ne_eq, eq_comm]

theorem lastText?_concat {events : List Event} (ho : origin ≠ .inserted events.length) :
    lastText? given (events ++ [event]) origin =
      (event.newText? origin).or (lastText? given events origin) := by
  rw [lastText?, lastText?, firstText?_concat, if_neg ho, List.reverse_concat, List.findSome?_cons]
  cases event.newText? origin <;> rfl

theorem newText?_of_ne (h : event.touched? ≠ some origin) : event.newText? origin = none := by
  cases event with
  | rewritten other text =>
    have hne : other ≠ origin := fun he => h (congrArg some he)
    simp [Event.newText?, hne]
  | _ => rfl

/-- A line that was there before the last operation, which did not write it anew. -/
theorem lastText?_of_ne (h : Provenance given entries ledger) {line : TracedLine}
    (hm : line ∈ ledger.lines) (ht : event.newText? line.origin = none) :
    lastText? given (ledger.events ++ [event]) line.origin = some line.text := by
  have hne : line.origin ≠ .inserted ledger.events.length := by
    intro he
    exact h.not_mem_next (he ▸ List.mem_map_of_mem hm)
  rw [lastText?_concat hne, ht, Option.none_or]
  exact h.texts line hm

theorem lastText?_next (h : Provenance given entries ledger) (text : Text) :
    lastText? given (ledger.events ++ [.inserted text]) (.inserted ledger.events.length) =
      some text := by
  have hnone : ledger.events.reverse.findSome?
      (Event.newText? (.inserted ledger.events.length)) = none := by
    rw [List.findSome?_eq_none_iff]
    intro event hm
    exact newText?_of_ne (h.touched_ne (List.mem_reverse.1 hm))
  rw [lastText?, firstText?_concat, if_pos rfl, List.reverse_concat, List.findSome?_cons]
  simp [Event.newText?, hnone, Event.insertedText?]

theorem texts_writes (h : Provenance given entries ledger) (hw : Writes ledger event next) :
    ∀ line ∈ next.lines, lastText? given next.events line.origin = some line.text := by
  intro line hm
  rw [events_of_writes hw]
  cases hw with
  | nothing => exact lastText?_of_ne h hm rfl
  | inserted text hl =>
    rcases List.mem_append.1 hm with hm | hm
    · exact lastText?_of_ne h (hl ▸ List.mem_append_left _ hm) rfl
    · rcases List.mem_cons.1 hm with rfl | hm
      · exact lastText?_next h text
      · exact lastText?_of_ne h (hl ▸ List.mem_append_right _ hm) rfl
  | removed hl =>
    have hold : line ∈ ledger.lines := by
      rw [hl, List.mem_append, List.mem_cons]
      exact (List.mem_append.1 hm).imp_right Or.inr
    exact lastText?_of_ne h hold rfl
  | @rewritten above below old text hl =>
    have hdistinct := h.distinct
    rw [hl, List.map_append, List.map_cons, List.nodup_middle, List.nodup_cons,
      ← List.map_append] at hdistinct
    have hother : line ∈ above ++ below → lastText? given
        (ledger.events ++ [.rewritten old.origin text]) line.origin = some line.text := by
      intro hline
      have hne : old.origin ≠ line.origin := by
        intro he
        exact hdistinct.1 (he ▸ List.mem_map_of_mem hline)
      refine lastText?_of_ne h ?_ (by simp [Event.newText?, hne])
      rw [hl, List.mem_append, List.mem_cons]
      exact (List.mem_append.1 hline).imp_right Or.inr
    rcases List.mem_append.1 hm with hm | hm
    · exact hother (List.mem_append_left _ hm)
    · rcases List.mem_cons.1 hm with rfl | hm
      · have hne : old.origin ≠ .inserted ledger.events.length := by
          intro he
          exact h.not_mem_next (he ▸ List.mem_map_of_mem (by simp [hl]))
        simp [lastText?_concat hne, Event.newText?]
      · exact hother (List.mem_append_right _ hm)

theorem later_writes (h : Provenance given entries ledger) (hw : Writes ledger event next) :
    ∀ (number : Nat) (event : Event) (operation : Nat), next.events[number]? = some event →
      event.touched? = some (.inserted operation) → operation < number := by
  intro number found operation hnumber htouched
  rw [events_of_writes hw] at hnumber
  rcases Nat.lt_or_ge number ledger.events.length with hlt | hge
  · rw [List.getElem?_append_left hlt] at hnumber
    exact h.later number found operation hnumber htouched
  · have hlength := (List.getElem?_eq_some_iff.1 hnumber).1
    rw [List.length_append, List.length_singleton] at hlength
    have hlast : number = ledger.events.length := by omega
    subst hlast
    rw [List.getElem?_concat_length, Option.some.injEq] at hnumber
    subst hnumber
    have hmem : .inserted operation ∈ ledger.lines.map TracedLine.origin := by
      cases hw with
      | nothing => simp [Event.touched?] at htouched
      | inserted text hl => simp [Event.touched?] at htouched
      | removed hl => rw [hl, ← Option.some.inj htouched]; simp
      | rewritten text hl => rw [hl, ← Option.some.inj htouched]; simp
    have hfirst := ((h.present _).1 hmem).1
    rw [firstText?, Option.isSome_bind] at hfirst
    cases hget : ledger.events[operation]? with
    | none => simp [hget] at hfirst
    | some other => exact (List.getElem?_eq_some_iff.1 hget).1

/-- Of insertions and removals the log tells no more and no fewer than there were. -/
theorem counted_of_recorded {outcome : Outcome} (h : event.Recorded outcome) :
    outcome.inserts = event.insertedText?.isSome ∧ outcome.removes = event.isRemoval := by
  cases outcome with
  | skipped reason => cases event <;> first | exact ⟨rfl, rfl⟩ | exact h.elim
  | applied change => cases event <;> cases change <;> first | exact ⟨rfl, rfl⟩ | exact h.elim

theorem count_writes (h : Provenance given entries ledger) (hw : Writes ledger event next)
    (hr : event.Recorded entry.outcome) :
    next.lines.length + (entries ++ [entry]).countP (·.outcome.removes) =
      given.length + (entries ++ [entry]).countP (·.outcome.inserts) := by
  have hcount := h.count
  obtain ⟨hinserts, hremoves⟩ := counted_of_recorded hr
  rw [List.countP_append, List.countP_append, List.countP_singleton, List.countP_singleton, hinserts,
    hremoves]
  cases hw with
  | nothing => simpa [Event.insertedText?, Event.isRemoval] using hcount
  | inserted text hl =>
    rw [hl, List.length_append] at hcount
    simp only [List.length_append, List.length_cons, Event.insertedText?, Option.isSome_some,
      Event.isRemoval, if_true, Bool.false_eq_true, if_false]
    omega
  | removed hl =>
    rw [hl, List.length_append, List.length_cons] at hcount
    simp only [List.length_append, Event.insertedText?, Option.isSome_none, Event.isRemoval,
      if_true, Bool.false_eq_true, if_false]
    omega
  | rewritten text hl => simpa [hl, Event.insertedText?, Event.isRemoval] using hcount

theorem provenance_writes (h : Provenance given entries ledger) (hw : Writes ledger event next)
    (hr : event.Recorded entry.outcome) : Provenance given (entries ++ [entry]) next := by
  refine ⟨?_, kept_writes hw h.kept, distinct_writes h hw, present_writes h hw, texts_writes h hw,
    later_writes h hw, count_writes h hw hr⟩
  rw [events_of_writes hw]
  exact List.rel_append h.recorded (.cons hr .nil)

theorem origins_ofLines (given : List Text) :
    (Ledger.ofLines given).lines.map TracedLine.origin =
      (List.range given.length).map Origin.given := by
  rw [List.range_eq_range', ← List.zipIdx_map_snd 0 given, Ledger.ofLines, List.map_map,
    List.map_map]
  rfl

theorem provenance_ofLines (given : List Text) : Provenance given [] (Ledger.ofLines given) := by
  refine ⟨.nil, rfl, ?_, fun origin => ?_, fun line hm => ?_, fun number event operation h => ?_, ?_⟩
  · rw [origins_ofLines]
    exact List.nodup_range.map fun number other he => Origin.given.inj he
  · rw [origins_ofLines]
    cases origin with
    | given number => simp [firstText?, Ledger.ofLines]
    | inserted operation => simp [firstText?, Ledger.ofLines]
  · obtain ⟨⟨text, number⟩, hpair, rfl⟩ := List.mem_map.1 hm
    exact List.mem_zipIdx_iff_getElem?.1 hpair
  · simp [Ledger.ofLines] at h
  · simp [Ledger.ofLines]

/-- Each step is entered as it is made. -/
theorem provenance_step {operation : Operation} {after : Session}
    (hs : session.step operation = .ok (after, entry)) (hl : ledger.texts = session.lines)
    (h : Provenance given entries ledger) :
    (ledger.enter (session.effect? operation)).texts = after.lines ∧
      after.newline = session.newline ∧
      Provenance given (entries ++ [entry]) (ledger.enter (session.effect? operation)) := by
  rcases Session.step_eq_ok hs with
    ⟨rfl, hnone, reason, rfl⟩ | ⟨edit, splice, change, hedit, hsplice, hfinds, htells, rfl, rfl⟩
  · rw [hnone]
    exact ⟨hl, rfl, provenance_writes h .nothing trivial⟩
  · obtain ⟨event, hwrites, hrecorded, htexts⟩ := writes_enter hl hfinds htells
    rw [Session.effect?_eq hedit, hsplice]
    exact ⟨htexts, rfl, provenance_writes h hwrites hrecorded⟩

theorem provenance_run (hr : session.run operations = .ok (last, more))
    (hl : ledger.texts = session.lines) (h : Provenance given entries ledger) :
    (session.record ledger operations).texts = last.lines ∧ last.newline = session.newline ∧
      Provenance given (entries ++ more) (session.record ledger operations) := by
  induction operations generalizing session ledger entries more with
  | nil =>
    cases hr
    exact ⟨hl, rfl, by simpa [Session.record] using h⟩
  | cons operation rest ih =>
    obtain ⟨after, entry, others, hstep, hrest, rfl⟩ := Session.run_cons_eq_ok.1 hr
    obtain ⟨htexts, hnewline, hprovenance⟩ := provenance_step hstep hl h
    obtain ⟨hlast, hsame, hall⟩ := ih hrest htexts hprovenance
    rw [List.append_assoc, List.singleton_append] at hall
    simp only [Session.record, hstep]
    exact ⟨hlast, hsame.trans hnewline, hall⟩

/-- The ledger of all operations on a text. -/
def Ledger.ofBatch (text : Text) (operations : List Operation) : Ledger :=
  match Session.ofText text with
  | .ok first => first.record (.ofLines first.lines) operations
  | .error _ => .ofLines []

theorem texts_ofLines (given : List Text) : (Ledger.ofLines given).texts = given := by
  simp [Ledger.texts, Ledger.ofLines, Function.comp_def]

/-- The ledger of a batch accounts for the text that the batch leads to. -/
theorem provenance_ofBatch {result : Result} (h : applyChanges text operations = .ok result) :
    result.code = (Newline.ofText text).join (Ledger.ofBatch text operations).texts ∧
      Provenance ((Newline.ofText text).split text) result.entries
        (Ledger.ofBatch text operations) := by
  obtain ⟨first, last, entries, hs, hrun, rfl⟩ := applyChanges_eq_ok h
  have hnewline : first.newline = Newline.ofText text := by rw [(ofText_starts hs).1]
  have hlines : first.lines = (Newline.ofText text).split text := by rw [(ofText_starts hs).1]
  obtain ⟨htexts, hsame, hprovenance⟩ :=
    provenance_run hrun (texts_ofLines first.lines) (provenance_ofLines first.lines)
  rw [Ledger.ofBatch, hs, ← hlines, ← hnewline, ← hsame]
  exact ⟨congrArg last.newline.join htexts.symm, hprovenance⟩

/-- The lines of an edited text are those of the text that no operation touched, as they were and in
their order, and those that the operations put in or wrote anew. -/
theorem applyChanges_provenance {result : Result} (h : applyChanges text operations = .ok result) :
    result.code = (Newline.ofText text).join (Ledger.ofBatch text operations).texts ∧
      (((Ledger.ofLines ((Newline.ofText text).split text)).lines.filter
        (Untouched (Ledger.ofBatch text operations).events)).map TracedLine.text).Sublist
          (Ledger.ofBatch text operations).texts ∧
      Provenance ((Newline.ofText text).split text) result.entries
        (Ledger.ofBatch text operations) := by
  obtain ⟨hcode, hprovenance⟩ := provenance_ofBatch h
  refine ⟨hcode, ?_, hprovenance⟩
  rw [← hprovenance.kept]
  exact List.filter_sublist.map TracedLine.text

theorem applyChanges_provenance_hostile : ∃ result,
    applyChanges mixedSample hostileOperations = .ok result ∧
    (Ledger.ofBatch mixedSample hostileOperations).events.map Event.touched? =
      [some (.given 1), none, some (.given 2), none, some (.given 1)] ∧
    (Ledger.ofBatch mixedSample hostileOperations).lines.map TracedLine.origin =
      [.given 0, .inserted 1, .given 3, .inserted 3, .given 4, .given 5, .given 6] ∧
    result.code = (Newline.ofText mixedSample).join
      (Ledger.ofBatch mixedSample hostileOperations).texts ∧
    Provenance ((Newline.ofText mixedSample).split mixedSample) result.entries
      (Ledger.ofBatch mixedSample hostileOperations) := by
  have hok : (applyChanges mixedSample hostileOperations).isOk = true := by decide +kernel
  cases h : applyChanges mixedSample hostileOperations with
  | error fault => simp [h, Except.isOk, Except.toBool] at hok
  | ok result =>
    obtain ⟨hcode, _, hprovenance⟩ := applyChanges_provenance h
    exact ⟨result, rfl, by decide +kernel, by decide +kernel, hcode, hprovenance⟩

end Swimlane.Patch
