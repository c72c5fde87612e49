import Swimlane.Proofs.Diagram.EdgeShape
import Swimlane.Proofs.Diagram.Reading

/-! Which lines the search for an edge finds, among those that draw one. -/
namespace Swimlane.Line

open Text Escaped Patch

variable {c : Char} {name node rest source target handle mark line lane : Text}
  {sourceHandle targetHandle : Text} {label : Option Text}

/-- An edge in its usual form: each node with its handle and perhaps its lane, and anything behind. -/
inductive UsualEdge (source target : Text) : Text → Prop
  | intro {margin first sourceHandle gap space second targetHandle rest : Text}
      (hb : ∀ c ∈ margin ++ gap ++ space, isBlank c = true) (hf : LaneMark first)
      (hsh : IsHandle sourceHandle) (hs : LaneMark second) (hth : IsHandle targetHandle) :
      UsualEdge source target (margin ++ writtenEnd (first ++ source) sourceHandle
        (gap ++ (arrow ++ (space ++ writtenEnd (second ++ target) targetHandle rest))))

theorem isSome_after? : (after? (target ++ ".handle") (target ++ (handleStart ++ rest))).isSome := by
  have hcut : target ++ (handleStart ++ rest) = (target ++ ".handle".toList) ++ '(' :: rest := by
    rw [List.append_assoc]
    rfl
  rw [hcut, after?_append]
  rfl

/-- An edge in its usual form is found. -/
theorem isEdgeBetween_of_usual (h : UsualEdge source target line) :
    isEdgeBetween source target line = true := by
  cases h with
  | @intro margin first sourceHandle gap space second targetHandle rest hb hf hsh hs hth =>
    have hblanks : ∀ part, part ⊆ margin ++ gap ++ space → ∀ c ∈ part, isBlank c = true :=
      fun part hsub c hc => hb c (hsub hc)
    have htarget : (nameStarts (space ++ writtenEnd (second ++ target) targetHandle rest)).any
        (fun start => (after? (target ++ ".handle") start).isSome) = true := by
      rw [writtenEnd, List.append_assoc]
      refine List.any_eq_true.2 ⟨_, mem_nameStarts_iff.2 ⟨space, second, rfl, ?_, hs⟩, isSome_after?⟩
      exact hblanks space (by simp)
    rw [isEdgeBetween, writtenEnd, List.append_assoc]
    refine List.any_eq_true.2 ⟨_, mem_nameStarts_iff.2 ⟨margin, first, rfl, hblanks margin (by simp), hf⟩, ?_⟩
    rw [after?_append, Option.bind_some, handle?_append hsh, Option.bind_some]
    dsimp only
    rw [trimLeft_margin (hblanks gap (by simp)), trimLeft_arrow, after?_append]
    exact htarget

theorem append_mark (lane node : Text) : lane ++ ['.'] ++ node = lane ++ '.' :: node := by simp

theorem trimLeft_marked (hm : LaneMark mark) (hn : IsName node) :
    trimLeft (mark ++ node ++ rest) = mark ++ node ++ rest := by
  cases hm with
  | none => exact trimLeft_name hn
  | lane hl =>
    rw [List.append_assoc, List.append_assoc]
    exact trimLeft_name hl

theorem mentions_handle_marked (hm : LaneMark mark) (hn : IsName node) :
    mentions handleStart (mark ++ node) = false := by
  cases hm with
  | none =>
    cases h : mentions handleStart ([] ++ node) with
    | false => rfl
    | true =>
      have hdot : '.' ∈ node := (mentions_iff.1 h).subset (by decide)
      exact absurd hdot (not_mem_name hn (by decide))
  | lane hl =>
    rw [append_mark]
    exact mentions_handle_dotted (not_mem_name hl (by decide)) hn

theorem not_mem_marked (hm : LaneMark mark) (hn : IsName node) (hc : isWord c = false) (hd : c ≠ '.') :
    c ∉ mark ++ node := by
  have hnode := not_mem_name hn hc
  cases hm with
  | none => exact hnode
  | lane hl => simp [not_mem_name hl hc, hd, hnode]

theorem node_marked (hm : LaneMark mark) (hn : IsName node) :
    (Reference.ofText (mark ++ node)).node = node := by
  cases hm with
  | none =>
    rw [List.nil_append, reference_name hn]
  | @lane lane hl =>
    have htrim : trimLeft (lane ++ ['.'] ++ node ++ []) = _ := trimLeft_marked (.lane hl) hn
    rw [List.append_nil, append_mark] at htrim
    rw [append_mark, ← htrim, reference_dotted (not_mem_name hl (by decide)) hn]

/-- An end of an edge with a node's name is read where it stands. -/
theorem endPointFrom?_written {α : Type} {lead : EndPoint → Option α} {found : α} (hm : LaneMark mark)
    (hn : IsName node) (hh : IsHandle handle) (hl : lead ⟨mark ++ node, handle, rest⟩ = some found) :
    endPointFrom? lead [] (writtenEnd (mark ++ node) handle rest) = some found :=
  endPointFrom?_handle (not_mem_marked hm hn (by decide) (by decide)) (mentions_handle_marked hm hn)
    (by simp [hn.1]) hh hl

theorem trim_usual {margin : Text} (tail rest : Text) (hm : LaneMark mark) (hn : IsName node)
    (hb : ∀ c ∈ margin, isBlank c = true) :
    trim (margin ++ (mark ++ node ++ (tail ++ [')'] ++ rest))) =
      mark ++ node ++ (tail ++ [')'] ++ trimRight rest) := by
  have hcut : ∀ more : Text, mark ++ node ++ (tail ++ [')'] ++ more) =
      (mark ++ node ++ tail ++ [')']) ++ more := by simp
  rw [trim, trimLeft_margin hb, trimLeft_marked hm hn, hcut, hcut,
    trimRight_append ⟨')', by simp, by decide⟩]

theorem target?_written {space : Text} (hb : ∀ c ∈ space, isBlank c = true) (hm : LaneMark mark)
    (hn : IsName node) (hh : IsHandle handle) :
    target? (space ++ writtenEnd (mark ++ node) handle rest) = some ⟨mark ++ node, handle, rest⟩ := by
  have htrim : trimLeft (space ++ writtenEnd (mark ++ node) handle rest) =
      writtenEnd (mark ++ node) handle rest := by
    rw [trimLeft_margin hb]
    exact trimLeft_marked hm hn
  rw [target?, htrim, endPointFrom?_written hm hn hh rfl]

/-- A line with an arrow that opens no lane is read as the edge that it has. -/
theorem read_eq_of_edge? {found : Line} (hopen : laneOpen? (trim line) = none)
    (harrow : mentions arrow (trim line) = true) (he : edge? (trim line) = some found) :
    read line = found := by
  have hclose : trim line ≠ ['\x7d'] := by
    intro hclose
    rw [hclose] at harrow
    exact absurd harrow (by decide)
  have hnode : node? (trim line) = none := by rw [node?, if_pos harrow]
  rw [read, hopen]
  simp only [if_neg hclose, hnode, Option.none_or, he]

/-- The first end of an edge in its usual form leads on to the second. -/
theorem edgeFrom?_written {gap space : Text} (rest : Text) (hg : ∀ c ∈ gap, isBlank c = true)
    (hs : ∀ c ∈ space, isBlank c = true) (hm : LaneMark mark) (hn : IsName node) (hh : IsHandle handle) :
    edgeFrom? ⟨name, sourceHandle, gap ++ (arrow ++ (space ++ writtenEnd (mark ++ node) handle rest))⟩ =
      some (.edge (.ofText name) (.ofText (mark ++ node)) (lower (trim sourceHandle))
        (lower (trim handle)) (((edgeLabel? rest).bind nonempty?).map decode)) := by
  rw [edgeFrom?]
  dsimp only
  rw [trimLeft_margin hg, trimLeft_arrow, after?_append, Option.bind_some, target?_written hs hm hn hh]
  rfl

/-- An edge in its usual form that opens no lane is read as the edge of its two nodes. -/
theorem ends?_of_usual (hs : IsName source) (ht : IsName target) (h : UsualEdge source target line)
    (hopen : laneOpen? (trim line) = none) : ends? (read line) = some (source, target) := by
  cases h with
  | @intro margin first sourceHandle gap space second targetHandle rest hb hf hsh hsecond hth =>
    have hblanks : ∀ part, part ⊆ margin ++ gap ++ space → ∀ c ∈ part, isBlank c = true :=
      fun part hsub c hc => hb c (hsub hc)
    have hcut : ∀ more, writtenEnd (first ++ source) sourceHandle
        (gap ++ (arrow ++ (space ++ writtenEnd (second ++ target) targetHandle more))) =
        first ++ source ++ (handleStart ++ sourceHandle ++ ')' :: (gap ++ arrow ++ space ++ second ++
          target ++ handleStart ++ targetHandle) ++ [')'] ++ more) := by
      intro more
      simp [writtenEnd]
    have htrim := trim_usual (handleStart ++ sourceHandle ++ ')' :: (gap ++ arrow ++ space ++ second ++
      target ++ handleStart ++ targetHandle)) rest hf hs (hblanks margin (by simp))
    rw [← hcut, ← hcut] at htrim
    have hedge := endPointFrom?_written hf hs hsh (edgeFrom?_written (trimRight rest)
      (hblanks gap (by simp)) (hblanks space (by simp)) hsecond ht hth)
    rw [← edge?, ← htrim] at hedge
    have harrow : mentions arrow (trim (margin ++ writtenEnd (first ++ source) sourceHandle
        (gap ++ (arrow ++ (space ++ writtenEnd (second ++ target) targetHandle rest))))) = true := by
      rw [htrim, mentions_iff]
      exact ⟨first ++ source ++ handleStart ++ sourceHandle ++ ')' :: gap,
        space ++ writtenEnd (second ++ target) targetHandle (trimRight rest), by simp [writtenEnd]⟩
    rw [read_eq_of_edge? hopen harrow hedge, ends?, node_marked hf hs, node_marked hsecond ht]

/-- Text cut at a sign that a name does not have: the name ends there, or goes on to a later one. -/
theorem cut_at {left behind rest : Text} (hn : c ∉ name) (h : left ++ c :: behind = name ++ c :: rest) :
    left = name ∧ behind = rest ∨ ∃ more, left = name ++ c :: more ∧ more ++ c :: behind = rest := by
  rcases List.append_eq_append_iff.1 h with ⟨more, hname, hbehind⟩ | ⟨more, hleft, hrest⟩
  · cases more with
    | nil => exact Or.inl ⟨by simpa using hname.symm, by simpa using hbehind⟩
    | cons d more =>
      obtain rfl : c = d := (List.cons.inj hbehind).1
      exact absurd (by rw [hname]; simp) hn
  · cases more with
    | nil => exact Or.inl ⟨by simpa using hleft, by simpa using hrest.symm⟩
    | cons d more =>
      obtain ⟨rfl, hbehind⟩ := List.cons.inj hrest
      exact Or.inr ⟨more, hleft, hbehind.symm⟩

/-- Whatever start the search takes, the first handle that it can read on a new edge's line is the
source's. -/
theorem rest_of_handle {start more after : Text} (hs : IsName source) (hsh : IsHandle sourceHandle)
    (hstart : start ∈ nameStarts (renderEdge source sourceHandle name targetHandle label))
    (hmore : after? source start = some more) (hafter : handle? more = some (handle, after)) :
    after = ' ' :: (arrow ++ edgeRest name targetHandle label) := by
  obtain ⟨rfl, hh⟩ := handle?_eq_some_iff.1 hafter
  obtain ⟨blanks, mark, hplace, hb, hm⟩ := mem_nameStarts_iff.1 hstart
  have hmarked : '(' ∉ blanks ++ mark ++ source ++ ".handle" := by
    have hsign : isWord '(' = false := by decide
    have hname := not_mem_marked hm hs hsign (by decide)
    have hblank : '(' ∉ blanks := fun hmem => absurd (hb _ hmem) (by decide)
    simp only [List.mem_append, not_or] at hname ⊢
    exact ⟨⟨⟨hblank, hname.1⟩, hname.2⟩, by decide⟩
  have hplain : '(' ∉ indent ++ source ++ ".handle" := by
    simp only [List.mem_append, not_or]
    exact ⟨⟨by decide, not_mem_name hs (by decide)⟩, by decide⟩
  have hline : renderEdge source sourceHandle name targetHandle label = indent ++ source ++ ".handle" ++
      '(' :: (sourceHandle ++ ')' :: ' ' :: (arrow ++ edgeRest name targetHandle label)) := by
    rw [renderEdge_eq, List.append_assoc, List.append_assoc]
    rfl
  have hcut : renderEdge source sourceHandle name targetHandle label =
      (blanks ++ mark ++ source ++ ".handle".toList) ++ '(' :: (handle ++ ')' :: after) := by
    have hstart : handleStart = ".handle".toList ++ ['('] := rfl
    rw [hplace, after?_eq_some hmore, hstart]
    simp only [List.append_assoc, List.singleton_append]
  rw [hline] at hcut
  -- Neither cut has a parenthesis before the handle, so they end at the same one.
  rcases cut_at hmarked hcut with ⟨_, hhandles⟩ | ⟨_, hlong, _⟩
  · rcases cut_at hh.2 hhandles with ⟨_, hafter⟩ | ⟨_, hlong, _⟩
    · exact hafter.symm
    · exact absurd (by rw [hlong]; simp) hsh.2
  · exact absurd (by rw [hlong]; simp) hplain

/-- The target of a new edge is looked for behind the arrow. -/
theorem isEdgeBetween_renderEdge (hs : IsName source) (hsh : IsHandle sourceHandle) :
    isEdgeBetween source target (renderEdge source sourceHandle name targetHandle label) = true ↔
      ∃ start ∈ nameStarts (edgeRest name targetHandle label),
        (after? (target ++ ".handle") start).isSome := by
  have hskip : trimLeft (' ' :: (arrow ++ edgeRest name targetHandle label)) =
      arrow ++ edgeRest name targetHandle label := trimLeft_blank (by decide)
  constructor
  · intro h
    obtain ⟨start, hstart, hfound⟩ := List.any_eq_true.1 h
    split at hfound
    · next rest hrest =>
      obtain ⟨⟨handle, after⟩, hhandle, harrow⟩ := Option.bind_eq_some_iff.1 hrest
      obtain ⟨more, hmore, hafter⟩ := Option.bind_eq_some_iff.1 hhandle
      dsimp only at harrow
      rw [rest_of_handle hs hsh hstart hmore hafter, hskip, after?_append, Option.some.injEq] at harrow
      subst harrow
      exact List.any_eq_true.1 hfound
    · simp at hfound
  · rintro ⟨start, hstart, hsome⟩
    have hplace : renderEdge source sourceHandle name targetHandle label = indent ++ ([] ++ (source ++
        (handleStart ++ (sourceHandle ++ ')' :: ' ' ::
          (arrow ++ edgeRest name targetHandle label))))) := renderEdge_eq _ _ _ _ _
    refine List.any_eq_true.2 ⟨_, mem_nameStarts_iff.2 ⟨_, _, hplace, isBlank_of_mem_indent, .none⟩, ?_⟩
    rw [after?_append, Option.bind_some, handle?_append hsh, Option.bind_some]
    dsimp only
    rw [hskip, after?_append]
    exact List.any_eq_true.2 ⟨start, hstart, hsome⟩

theorem handle_begins {left behind rest : Text} (h : left ++ '.' :: behind = "handle".toList ++ rest) :
    "handle".toList <+: left := by
  rcases List.append_eq_append_iff.1 h with ⟨more, hhandle, hbehind⟩ | ⟨more, hleft, _⟩
  · cases more with
    | nil => exact ⟨[], by simpa using hhandle⟩
    | cons d more =>
      obtain rfl : '.' = d := (List.cons.inj hbehind).1
      exact absurd (show '.' ∈ "handle".toList by rw [hhandle]; simp) (by decide)
  · exact ⟨more, hleft.symm⟩

/-- Two ways to cut a text before a node's handle: if what stands before the node holds no handle and
the other cut has the mark of a lane at most, then it is a name. -/
theorem isName_of_cut {behind : Text} (ht : IsName target) (hm : LaneMark mark)
    (hlane : mentions ".handle" lane = false)
    (hcut : lane ++ '.' :: (target ++ '.' :: ("handle(".toList ++ rest)) =
      mark ++ (target ++ '.' :: ("handle".toList ++ behind))) : IsName lane := by
  have hno : ∀ left more, lane = left ++ '.' :: more → ¬ "handle".toList <+: more := by
    rintro left more rfl ⟨tail, rfl⟩
    have hmention : mentions ".handle" (left ++ '.' :: ("handle".toList ++ tail)) = true :=
      mentions_iff.2 ⟨left, tail, by rw [List.append_assoc]; rfl⟩
    exact Bool.false_ne_true (hlane.symm.trans hmention)
  have hpoint : '.' ∉ target := not_mem_name ht (by decide)
  -- A cut that ends sooner would leave a handle in what stands before the node.
  cases hm with
  | none =>
    rcases cut_at hpoint hcut with ⟨rfl, _⟩ | ⟨more, hlane, hmore⟩
    · exact ht
    · exact absurd (handle_begins hmore) (hno _ _ hlane)
  | @lane first hl =>
    rw [List.append_assoc, List.singleton_append] at hcut
    rcases cut_at (not_mem_name hl (by decide)) hcut with ⟨rfl, _⟩ | ⟨more, hlane, hmore⟩
    · exact hl
    · rcases cut_at hpoint hmore with ⟨rfl, hbehind⟩ | ⟨last, rfl, hlast⟩
      · exact absurd (handle_begins hbehind) (hno _ _ hlane)
      · refine absurd (handle_begins hlast) (hno (first ++ '.' :: target) _ ?_)
        rw [hlane]
        simp

/-- The search finds a new edge just when no more than a lane's name and a point stands before its
target. -/
theorem isEdgeBetween_written_iff (hs : IsName source) (ht : IsName target) (hsh : IsHandle sourceHandle)
    (hname : name = target ∨ ∃ lane, name = lane ++ '.' :: target ∧
      mentions ".handle" lane = false ∧ ∀ c ∈ lane.head?, isBlank c = false) :
    isEdgeBetween source target (renderEdge source sourceHandle name targetHandle label) = true ↔
      ∃ mark, LaneMark mark ∧ name = mark ++ target := by
  have hrest : edgeRest name targetHandle label = ' ' :: (name ++ '.' ::
      ("handle(".toList ++ (targetHandle ++ ')' :: writtenLabel label))) := rfl
  have hfirst : ∀ rest, trimLeft (name ++ '.' :: rest) = name ++ '.' :: rest := by
    intro rest
    rcases hname with rfl | ⟨lane, rfl, _, hhead⟩
    · exact trimLeft_name ht
    · cases lane with
      | nil => exact trimLeft_eq_self (by simp; decide)
      | cons c more => exact trimLeft_eq_self (by simpa using hhead)
  rw [isEdgeBetween_renderEdge hs hsh]
  constructor
  · rintro ⟨start, hstart, hsome⟩
    obtain ⟨behind, hbehind⟩ := Option.isSome_iff_exists.1 hsome
    obtain ⟨blanks, mark, hplace, hb, hm⟩ := mem_nameStarts_iff.1 hstart
    have hpoint : target ++ ".handle".toList ++ behind =
        target ++ '.' :: ("handle".toList ++ behind) := by
      rw [List.append_assoc]
      rfl
    have hcut := congrArg trimLeft hplace
    rw [after?_eq_some hbehind, hpoint, hrest, trimLeft_blank (by decide), hfirst, trimLeft_margin hb,
      ← List.append_assoc mark, trimLeft_marked hm ht, List.append_assoc] at hcut
    rcases hname with rfl | ⟨lane, rfl, hlane, _⟩
    · exact ⟨[], .none, rfl⟩
    · rw [List.append_assoc, List.cons_append] at hcut
      exact ⟨lane ++ ['.'], .lane (isName_of_cut ht hm hlane hcut), by simp⟩
  · rintro ⟨mark, hm, rfl⟩
    have hplace : edgeRest (mark ++ target) targetHandle label = [' '] ++ (mark ++ (target ++
        (handleStart ++ (targetHandle ++ ')' :: writtenLabel label)))) := by
      rw [edgeRest, List.append_assoc]
      rfl
    exact ⟨_, mem_nameStarts_iff.2 ⟨_, _, hplace, isBlank_of_mem_gap, hm⟩, isSome_after?⟩

end Swimlane.Line
