import PartitionSnapshot.CommandLine.Program
import PartitionSnapshot.Proofs.Effects
import PartitionSnapshot.Proofs.Numerals
import PartitionSnapshot.Proofs.Reports

/-!
# The text of an apply position

The text is two numerals with a bar between them, or one numeral without a bar, and there may be
blanks around each. Nothing else is read, and what is written for a position is read as this
position.

The program that shows what an apply file holds reads the same text as a load does, so it goes
through on the same files. It shows the index that a load comes to, and once a load has written the
position back, all of that position. What it prints is given in full.

## Main statements

* `ApplyPosition.parse?_eq_cursor_iff`, `ApplyPosition.parse?_eq_index_iff`: which texts are read,
  and as what.
* `CommandLine.dumpApply_eval`, `CommandLine.conclude_dumpApply`: what the program finds and prints.
* `CommandLine.applyText_exact`: the text, the load and the program.
-/

namespace PartitionSnapshot

namespace ApplyPosition

open Text

/-! ## The first bar -/

theorem splitAtBar?_eq_some_iff {cs front back : List Char} :
    splitAtBar? cs = some (front, back) ↔ cs = front ++ '|' :: back ∧ '|' ∉ front := by
  -- along the characters, up to the first bar
  induction cs generalizing front with
  | nil => simp [splitAtBar?]
  | cons c cs ih =>
    simp only [splitAtBar?]
    split
    · next hbar =>
      subst hbar
      cases front with
      | nil => simp [eq_comm]
      | cons head front =>
        refine iff_of_false (by simp) fun h => h.2 ?_
        rw [(List.cons.inj h.1).1]
        exact List.mem_cons_self
    · next hbar =>
      cases front with
      | nil => simp [hbar]
      | cons head front =>
        simp only [Option.map_eq_some_iff, Prod.exists, Prod.mk.injEq, List.cons_append,
          List.cons.injEq, List.mem_cons, not_or]
        constructor
        · rintro ⟨front', back', hsplit, ⟨rfl, rfl⟩, rfl⟩
          obtain ⟨hcs, hfront⟩ := ih.1 hsplit
          exact ⟨⟨rfl, hcs⟩, Ne.symm hbar, hfront⟩
        · rintro ⟨⟨rfl, hcs⟩, -, hfront⟩
          exact ⟨front, back, ih.2 ⟨hcs, hfront⟩, ⟨rfl, rfl⟩, rfl⟩

theorem splitAtBar?_eq_none_iff {cs : List Char} : splitAtBar? cs = none ↔ '|' ∉ cs := by
  induction cs with
  | nil => simp [splitAtBar?]
  | cons c cs ih =>
    simp only [splitAtBar?]
    split
    · next hbar => simp [hbar]
    · next hbar => simp [ih, Ne.symm hbar]

theorem not_mem_of_allBlank {cs : List Char} (h : AllBlank cs) : '|' ∉ cs :=
  fun hbar => absurd (h '|' hbar) (by decide)

/-- Dropping the blanks around the whole drops none but blanks on the two sides of the bar. -/
theorem splitAtBar?_trim {cs left right : List Char}
    (h : splitAtBar? cs = some (left, right)) :
    ∃ left' right', splitAtBar? (trim cs) = some (left', right') ∧ trim left' = trim left ∧
      trim right' = trim right := by
  obtain ⟨front, back, hcs, hfront, hback⟩ := exists_trim cs
  have hnil : AllBlank [] := nofun
  cases htrim : splitAtBar? (trim cs) with
  | none =>
    -- the bar would be among the blanks
    have hbar : '|' ∈ cs := by
      rw [(splitAtBar?_eq_some_iff.1 h).1]
      simp
    rw [hcs, List.mem_append, List.mem_append] at hbar
    rcases hbar with (hbar | hbar) | hbar
    · exact absurd hbar (not_mem_of_allBlank hfront)
    · exact absurd hbar (splitAtBar?_eq_none_iff.1 htrim)
    · exact absurd hbar (not_mem_of_allBlank hback)
  | some sides =>
    obtain ⟨left', right'⟩ := sides
    obtain ⟨hsides, hleft'⟩ := splitAtBar?_eq_some_iff.1 htrim
    have hsame : splitAtBar? cs = some (front ++ left', right' ++ back) := by
      refine splitAtBar?_eq_some_iff.2 ⟨?_, ?_⟩
      · rw [hsides] at hcs
        simpa using hcs
      · rw [List.mem_append, not_or]
        exact ⟨not_mem_of_allBlank hfront, hleft'⟩
    rw [hsame] at h
    cases h
    have hleft := trim_padded hfront hnil left'
    have hright := trim_padded hnil hback right'
    rw [List.append_nil] at hleft
    rw [List.nil_append] at hright
    exact ⟨left', right', rfl, hleft.symm, hright.symm⟩

/-- Only the blanks around each numeral are passed over, so it does not matter that those around the
whole are dropped first. -/
theorem parse?_eq (text : String) :
    parse? text = match splitAtBar? text.toList with
      | some (left, right) => do
        let index ← number64? (trim left)
        let cursor ← number64? (trim right)
        return (index, some cursor)
      | none => do return (← number64? (trim text.toList), none) := by
  unfold parse?
  cases hsplit : splitAtBar? text.toList with
  | some sides =>
    obtain ⟨left, right⟩ := sides
    obtain ⟨left', right', htrim, hleft, hright⟩ := splitAtBar?_trim hsplit
    simp only [htrim, hleft, hright]
  | none =>
    have htrim : splitAtBar? (trim text.toList) = none := by
      obtain ⟨front, back, hcs, -, -⟩ := exists_trim text.toList
      rw [splitAtBar?_eq_none_iff] at hsplit ⊢
      intro hbar
      apply hsplit
      rw [hcs]
      simp [hbar]
    simp only [htrim]

/-! ## The texts that are read -/

/-- The text has a bar, with one numeral between blanks in front of the first one, and another
behind it. -/
def TellsBoth (text : String) (index cursor : UInt64) : Prop :=
  ∃ left right, text.toList = left ++ '|' :: right ∧ '|' ∉ left ∧ Holds left index ∧
    Holds right cursor

/-- The text has no bar, and is one numeral between blanks. -/
def TellsIndex (text : String) (index : UInt64) : Prop :=
  '|' ∉ text.toList ∧ Holds text.toList index

theorem parse?_eq_cursor_iff {text : String} {index cursor : UInt64} :
    parse? text = some (index, some cursor) ↔ TellsBoth text index cursor := by
  rw [parse?_eq, TellsBoth]
  cases hsplit : splitAtBar? text.toList with
  | none =>
    refine iff_of_false (by simp [Option.bind_eq_some_iff]) ?_
    rintro ⟨left, right, htext, -⟩
    rw [splitAtBar?_eq_none_iff, htext] at hsplit
    simp at hsplit
  | some sides =>
    obtain ⟨left, right⟩ := sides
    simp only [Option.bind_eq_bind, Option.pure_def, Option.bind_eq_some_iff,
      number64?_trim_eq_some_iff, Option.some.injEq, Prod.mk.injEq]
    constructor
    · rintro ⟨index', hindex, cursor', hcursor, rfl, rfl⟩
      obtain ⟨htext, hleft⟩ := splitAtBar?_eq_some_iff.1 hsplit
      exact ⟨left, right, htext, hleft, hindex, hcursor⟩
    · rintro ⟨left', right', htext, hleft, hindex, hcursor⟩
      -- the first bar is in one place only
      rw [splitAtBar?_eq_some_iff.2 ⟨htext, hleft⟩] at hsplit
      cases hsplit
      exact ⟨index, hindex, cursor, hcursor, rfl, rfl⟩

theorem parse?_eq_index_iff {text : String} {index : UInt64} :
    parse? text = some (index, none) ↔ TellsIndex text index := by
  rw [parse?_eq, TellsIndex, ← splitAtBar?_eq_none_iff]
  cases hsplit : splitAtBar? text.toList with
  | none =>
    simp only [Option.bind_eq_bind, Option.pure_def, Option.bind_eq_some_iff,
      number64?_trim_eq_some_iff, Option.some.injEq, Prod.mk.injEq, and_true, exists_eq_right,
      true_and]
  | some sides =>
    refine iff_of_false ?_ (by simp)
    simp [Option.bind_eq_some_iff]

/-- A text that is not of either form is not read. -/
theorem parse?_eq_none_iff {text : String} :
    parse? text = none ↔
      (∀ index cursor, ¬ TellsBoth text index cursor) ∧ ∀ index, ¬ TellsIndex text index := by
  simp only [← parse?_eq_cursor_iff, ← parse?_eq_index_iff, Option.eq_none_iff_forall_ne_some,
    Prod.forall]
  constructor
  · exact fun h => ⟨fun index cursor => h index (some cursor), fun index => h index none⟩
  · rintro ⟨hboth, hindex⟩ index cursor
    cases cursor with
    | some cursor => exact hboth index cursor
    | none => exact hindex index

end ApplyPosition

/-! ## What the program comes to -/

namespace CommandLine

variable {α β : Type}

/-- The value or trouble in which work ends, and the tree that it leaves. -/
def Work.eval (tree : FileTree) (work : Work α) : Except Trouble α × FileTree :=
  Procedure.eval tree work.run

theorem Work.eval_bind (tree : FileTree) (work : Work α) (next : α → Work β) :
    Work.eval tree (work >>= next) =
      match Work.eval tree work with
      | (.ok value, after) => Work.eval after (next value)
      | (.error trouble, after) => (.error trouble, after) := by
  refine (Procedure.eval_bind tree work.run (ExceptT.bindCont next)).trans ?_
  unfold Work.eval
  rcases work.run.eval tree with ⟨value | trouble, after⟩ <;> rfl

theorem Work.eval_readText (tree : FileTree) (path : Path) (toTrouble : Failure → Trouble) :
    Work.eval tree (Work.readText path toTrouble) =
      (match tree.read path with
        | .error failure => .error (toTrouble failure)
        | .ok content =>
          match Bytes.toString? content with
          | some text => .ok text
          | none => .error (toTrouble .notText), tree) := by
  refine (Procedure.eval_bind tree (Procedure.read path) _).trans ?_
  rw [Procedure.eval_read]
  cases tree.read path with
  | error failure => rfl
  | ok content =>
    dsimp only
    cases Bytes.toString? content <;> rfl

/-- Leaving out notes changes nothing. -/
theorem eval_keepNotes (keep : Note → Bool) (tree : FileTree) (procedure : Procedure α) :
    (procedure.keepNotes keep).eval tree = procedure.eval tree := by
  -- along the requests and notes
  induction procedure generalizing tree with
  | done value => rfl
  | note entry rest ih =>
    rw [Procedure.keepNotes, Procedure.eval_note]
    split
    · rw [Procedure.eval_note, ih]
    · exact ih tree
  | step request rest ih =>
    rw [Procedure.keepNotes, Procedure.eval_step, Procedure.eval_step]
    exact ih _ _

/-- Once the arguments and the settings were read, the program does what it is asked to do. -/
theorem run_eval {arguments : List String} {given : Given} {operation : Operation}
    {operand : Path} (harguments : read arguments = .ok (.run given operation operand))
    {tree : FileTree} {settings : Settings}
    (hsettings : Work.eval tree (readSettings given.config) = (.ok settings, tree)) :
    (run arguments).eval tree =
      (conclude (work given settings operation operand)).eval tree := by
  unfold run
  rw [harguments]
  dsimp only
  rw [Procedure.eval_bind_of_eq _ hsettings]
  exact eval_keepNotes _ tree _

/-- Only a note precedes a command, so the program ends with what the command comes to. -/
theorem conclude_work {given : Given} {settings : Settings} {operation : Operation} {operand : Path}
    {tree after : FileTree} {result : Except Trouble String} :
    (∀ options, Work.eval tree (carryOut given.json options operation operand) =
      (result, after)) →
    (conclude (work given settings operation operand)).eval tree =
      (match result with
        | .ok output => .success output
        | .error trouble => .failure trouble.reportLines, after) := by
  intro h
  have hwork : Work.eval tree (work given settings operation operand) = (result, after) := by
    unfold work
    cases given.config with
    | none => exact h _
    | some path =>
      dsimp only
      rw [Work.eval_bind]
      exact h _
  unfold conclude
  rw [Procedure.eval_bind_of_eq _ hwork]
  cases result <;> rfl

/-! ## Showing what an apply file holds -/

/-- What the program finds in an apply file, from the answer to its reading. -/
def storedPosition (path : Path) (answer : Except Failure Bytes) :
    Except Trouble StoredPosition :=
  match answer with
  | .error failure => .error (.readApply path failure)
  | .ok content =>
    match Bytes.toString? content with
    | none => .error (.readApply path .notText)
    | some text =>
      match ApplyPosition.parse? text with
      | none => .error (.parseApply path text)
      | some (index, cursor) => .ok ⟨index, cursor⟩

theorem dumpApply_eval (tree : FileTree) (directory : Path) :
    Work.eval tree (dumpApply directory) =
      (storedPosition (directory.join Layout.apply) (tree.read (directory.join Layout.apply)),
        tree) := by
  unfold dumpApply storedPosition
  dsimp only
  rw [Work.eval_bind, Work.eval_readText]
  cases tree.read (directory.join Layout.apply) with
  | error failure => rfl
  | ok content =>
    dsimp only
    cases Bytes.toString? content with
    | none => rfl
    | some text =>
      dsimp only
      cases ApplyPosition.parse? text <;> rfl

theorem carryOut_dumpApply (json : Bool) (options : Options) (tree : FileTree) (directory : Path) :
    Work.eval tree (carryOut json options .dumpApply directory) =
      ((storedPosition (directory.join Layout.apply) (tree.read (directory.join Layout.apply))).map
        fun position => positionReport json position.index position.cursor, tree) := by
  unfold carryOut
  dsimp only
  rw [Work.eval_bind, dumpApply_eval]
  cases storedPosition (directory.join Layout.apply) (tree.read (directory.join Layout.apply)) with
  | error trouble => rfl
  | ok position => exact congrArg (Except.ok ·, tree) (position.printed_eq json)

theorem conclude_dumpApply (given : Given) (settings : Settings) (tree : FileTree)
    (directory : Path) :
    (conclude (work given settings .dumpApply directory)).eval tree =
      (match storedPosition (directory.join Layout.apply)
          (tree.read (directory.join Layout.apply)) with
        | .ok position => .success (positionReport given.json position.index position.cursor)
        | .error trouble => .failure trouble.reportLines, tree) := by
  rw [conclude_work fun options => carryOut_dumpApply given.json options tree directory]
  cases storedPosition (directory.join Layout.apply)
    (tree.read (directory.join Layout.apply)) <;> rfl

/-- A text that says a position is found by the program. -/
theorem storedPosition_of_says (path : Path) {content : Bytes} {index : UInt64}
    {stored : Option UInt64} (h : ApplyPosition.Says content (index, stored)) :
    storedPosition path (.ok content) = .ok ⟨index, stored⟩ := by
  obtain ⟨text, htext, hparse⟩ := h
  have hdecode : Bytes.toString? content = some text := by
    unfold Utf8.decode at htext
    split at htext
    · next found hfound => rwa [← Except.ok.inj htext]
    · cases htext
  simp only [storedPosition, hdecode, hparse]

/-- A content that says no position is a trouble to the program. -/
theorem storedPosition_of_not_says (path : Path) {content : Bytes}
    (h : ∀ parsed, ¬ ApplyPosition.Says content parsed) :
    ∃ trouble, storedPosition path (.ok content) = .error trouble := by
  cases hdecode : Bytes.toString? content with
  | none => exact ⟨_, by simp only [storedPosition, hdecode]; rfl⟩
  | some text =>
    have htext : Utf8.decode content = .ok text := by simp only [Utf8.decode, hdecode]
    cases hparse : ApplyPosition.parse? text with
    | none => exact ⟨_, by simp only [storedPosition, hdecode, hparse]; rfl⟩
    | some parsed => exact absurd ⟨text, htext, hparse⟩ (h parsed)

/-- Asked to show the apply file of a directory, the program finds an index and a cursor or none,
ends well and prints these, and leaves the tree as it is. -/
def ShowsPosition (given : Given) (settings : Settings) (directory : Path) (tree : FileTree)
    (index : UInt64) (cursor : Option UInt64) : Prop :=
  Work.eval tree (dumpApply directory) = (.ok ⟨index, cursor⟩, tree) ∧
  (conclude (work given settings .dumpApply directory)).eval tree =
    (.success (positionReport given.json index cursor), tree)

theorem showsPosition_of_says (given : Given) (settings : Settings) {tree : FileTree}
    {directory : Path} {content : Bytes} {index : UInt64} {stored : Option UInt64}
    (hread : tree.read (directory.join Layout.apply) = .ok content)
    (hparsed : ApplyPosition.Says content (index, stored)) :
    ShowsPosition given settings directory tree index stored := by
  have hstored := storedPosition_of_says (directory.join Layout.apply) hparsed
  constructor
  · rw [dumpApply_eval, hread, hstored]
  · rw [conclude_dumpApply, hread, hstored]

/-- Whatever stands in an apply file, a load of it and the program that shows it both go through or
both fail. When they go through, the program shows the index that the load comes to, and behind the
load all of the position that the load came to. -/
theorem loadApply_shown (store : Store) {tree : FileTree} {directory : Path} {content : Bytes}
    (hread : tree.read (directory.join Layout.apply) = .ok content) (cursor : UInt64)
    (given : Given) (settings : Settings) :
    (∃ position after stored,
      ApplyPosition.Says content (position.index, stored) ∧
      Task.eval tree (store.loadApply directory cursor) = (.ok position, after) ∧
      ShowsPosition given settings directory tree position.index stored ∧
      ShowsPosition given settings directory after position.index (some position.cursor)) ∨
    ∃ error trouble,
      (∀ parsed, ¬ ApplyPosition.Says content parsed) ∧
      Task.eval tree (store.loadApply directory cursor) = (.error error, tree) ∧
      Work.eval tree (dumpApply directory) = (.error trouble, tree) ∧
      (conclude (work given settings .dumpApply directory)).eval tree =
        (.failure trouble.reportLines, tree) := by
  by_cases hsays : ∃ parsed, ApplyPosition.Says content parsed
  · obtain ⟨⟨index, stored⟩, hparsed⟩ := hsays
    obtain ⟨after, hload, hover⟩ := Store.loadApply_overwrites cursor hread hparsed
    have hslash : (directory.join Layout.apply).endsInSlash = false :=
      Path.endsInSlash_join directory (by decide)
    -- what was written back says the position that the load came to
    exact .inl ⟨_, after, stored, hparsed, hload,
      showsPosition_of_says given settings hread hparsed,
      showsPosition_of_says given settings (hover.read_self hslash) (ApplyPosition.says_text _)⟩
  · have hnothing : ∀ parsed, ¬ ApplyPosition.Says content parsed :=
      fun parsed hparsed => hsays ⟨parsed, hparsed⟩
    obtain ⟨trouble, htrouble⟩ :=
      storedPosition_of_not_says (directory.join Layout.apply) hnothing
    cases hdecode : Store.decodeApply (store.context "loadApplyID") content with
    | ok parsed => exact absurd (Store.decodeApply_eq_ok.1 hdecode) (hnothing parsed)
    | error error =>
      refine .inr ⟨error, trouble, hnothing, ?_, ?_, ?_⟩
      · rw [Store.loadApply_in, hread]
        dsimp only
        rw [hdecode]
      · rw [dumpApply_eval, hread, htrouble]
      · rw [conclude_dumpApply, hread, htrouble]

/-- **The text of an apply position, and who reads it.** A text is read as an index and a cursor
just when it has a bar, in front of the first one a numeral of the index and behind it a numeral of
the cursor, each between blanks; it is read as an index alone just when it has no bar and is a
numeral of the index between blanks; and it is not read when it is neither. The text that is written
for a position is read as that position.

On any content of an apply file the program that shows it goes through just when a load does, which
is when the content says a position. It finds and prints the index that the load comes to, with the
cursor that was stored, if any; and behind the load it finds and prints the position that the load
came to. When the load fails, the program fails and prints no position. -/
theorem applyText_exact :
    (∀ text index cursor, ApplyPosition.parse? text = some (index, some cursor) ↔
      ApplyPosition.TellsBoth text index cursor) ∧
    (∀ text index, ApplyPosition.parse? text = some (index, none) ↔
      ApplyPosition.TellsIndex text index) ∧
    (∀ text, ApplyPosition.parse? text = none ↔
      (∀ index cursor, ¬ ApplyPosition.TellsBoth text index cursor) ∧
        ∀ index, ¬ ApplyPosition.TellsIndex text index) ∧
    (∀ position : ApplyPosition,
      ApplyPosition.parse? position.text = some (position.index, some position.cursor)) ∧
    (∀ (store : Store) (tree : FileTree) (directory : Path) (content : Bytes) (cursor : UInt64)
      (given : Given) (settings : Settings),
      tree.read (directory.join Layout.apply) = .ok content →
      (∃ position after stored,
        ApplyPosition.Says content (position.index, stored) ∧
        Task.eval tree (store.loadApply directory cursor) = (.ok position, after) ∧
        ShowsPosition given settings directory tree position.index stored ∧
        ShowsPosition given settings directory after position.index (some position.cursor)) ∨
      ∃ error trouble,
        (∀ parsed, ¬ ApplyPosition.Says content parsed) ∧
        Task.eval tree (store.loadApply directory cursor) = (.error error, tree) ∧
        Work.eval tree (dumpApply directory) = (.error trouble, tree) ∧
        (conclude (work given settings .dumpApply directory)).eval tree =
          (.failure trouble.reportLines, tree)) ∧
    ∀ (arguments : List String) (given : Given) (directory : Path) (tree : FileTree)
      (settings : Settings), read arguments = .ok (.run given .dumpApply directory) →
      Work.eval tree (readSettings given.config) = (.ok settings, tree) →
      (run arguments).eval tree =
        (conclude (work given settings .dumpApply directory)).eval tree := by
  refine ⟨fun _ _ _ => ApplyPosition.parse?_eq_cursor_iff,
    fun _ _ => ApplyPosition.parse?_eq_index_iff, fun _ => ApplyPosition.parse?_eq_none_iff,
    ApplyPosition.parse?_text, ?_, ?_⟩
  · intro store tree directory content cursor given settings hread
    exact loadApply_shown store hread cursor given settings
  · intro arguments given directory tree settings harguments hsettings
    exact run_eval harguments hsettings

/-- A file with a sign, a blank on each side of the bar and zeros in front: the load comes to index
42 and cursor 7, and the program prints these, as JSON or as text. -/
theorem applyText_exact_blanks :
    let store := Store.sample "p"
    let directory : Path := ⟨"d"⟩
    let content := Bytes.ofString " +42 | 007\n"
    let tree : FileTree := .directory [("d", .directory [("apply", .file content)])]
    tree.read (directory.join Layout.apply) = .ok content ∧
    read ["--json", "dump-apply", "d"] = .ok (.run { json := true } .dumpApply directory) ∧
    ApplyPosition.TellsBoth " +42 | 007\n" 42 7 ∧
    ∃ after, Task.eval tree (store.loadApply directory 5) = (.ok ⟨42, 7⟩, after) ∧
      (run ["dump-apply", "d"]).eval tree = (.success "applyID=42 cursor=7\n", tree) ∧
      (run ["--json", "dump-apply", "d"]).eval after =
        (.success "\x7b\n  \"apply_id\": 42,\n  \"cursor\": 7\n\x7d\n", after) := by
  intro store directory content tree
  obtain ⟨hboth, -, -, -, hshown, hrun⟩ := applyText_exact
  have hread : tree.read (directory.join Layout.apply) = .ok content :=
    eq_ok_of_toOption (by decide +kernel)
  have hplain : read ["dump-apply", "d"] = .ok (.run {} .dumpApply directory) := by decide +kernel
  have hjson :
      read ["--json", "dump-apply", "d"] = .ok (.run { json := true } .dumpApply directory) := by
    decide +kernel
  have hparse : ApplyPosition.parse? " +42 | 007\n" = some (42, some 7) := by decide +kernel
  refine ⟨hread, hjson, (hboth _ _ _).1 hparse, ?_⟩
  rcases hshown store tree directory content 5 {} {} hread with
    ⟨position, after, stored, ⟨text, htext, hsays⟩, hload, hbefore, -⟩ |
      ⟨error, trouble, hnothing, -⟩
  · -- the same load, with the report as JSON behind it
    rcases hshown store tree directory content 5 { json := true } {} hread with
      ⟨position', after', -, -, hload', -, hbehind⟩ | ⟨error, -, -, hload', -⟩
    · cases hload.symm.trans hload'
      have hposition : position = ⟨42, 7⟩ := by
        have hfirst : (Task.eval tree (store.loadApply directory 5)).1.toOption = some ⟨42, 7⟩ := by
          decide +kernel
        rw [hload] at hfirst
        exact Option.some.inj hfirst
      subst hposition
      cases (Utf8.decode_ofString _).symm.trans htext
      cases hparse.symm.trans hsays
      have hline : positionReport false 42 (some 7) = "applyID=42 cursor=7\n" := by decide +kernel
      have hindented : positionReport true 42 (some 7) =
          "\x7b\n  \"apply_id\": 42,\n  \"cursor\": 7\n\x7d\n" := by decide +kernel
      refine ⟨after, hload, ?_, ?_⟩
      · rw [← hline]
        exact (hrun _ _ _ tree {} hplain rfl).trans hbefore.2
      · rw [← hindented]
        exact (hrun _ _ _ after {} hjson rfl).trans hbehind.2
    · cases hload.symm.trans hload'
  · exact absurd ⟨_, Utf8.decode_ofString _, hparse⟩ (hnothing (42, some 7))

end CommandLine

end PartitionSnapshot
