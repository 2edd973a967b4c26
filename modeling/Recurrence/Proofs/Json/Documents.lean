import Recurrence.Proofs.Json.Strings
import Recurrence.Proofs.Schedule.Text

/-!
# Documents written and read

A schedule can be written as a string of JSON with its text, or as a record with the strings of its
members over several lines, and both documents are read as the schedule
(`Json.decode_ofSchedule`, `Json.decode_snapshotChars`).  Conversely, what is read from a document,
however it is laid out, is made of expressions that are read from texts (`Json.wellFormed_of_decode_snapshot`).
-/

namespace Recurrence.Json

open Byte

/-! ### Whole documents -/

section decode

variable {α β : Type} {scan : Scanner α} {document s rest : Bytes} {value : α}

/-- A document is read if its front is, and nothing but blanks follows. -/
theorem decode_eq_ok_iff : decode scan document = .ok value ↔
    ∃ rest, scan document = .ok (value, rest) ∧ skipBlanks rest = [] := by
  rw [decode, mapError_eq_ok_iff, bind_eq_ok_iff]
  constructor
  · rintro ⟨⟨value', rest⟩, hscan, h⟩
    dsimp only at h
    split at h
    next hrest =>
      cases h
      exact ⟨rest, hscan, hrest⟩
    next => cases h
  · rintro ⟨rest, hscan, hrest⟩
    refine ⟨_, hscan, ?_⟩
    simp only [hrest]
    rfl

theorem parsed_eq_ok_iff {parse : String → Except ParseError α} :
    parsed parse s = .ok (value, rest) ↔
      ∃ raw, text s = .ok (raw, rest) ∧ parse raw = .ok value := by
  rw [parsed, bind_eq_ok_iff]
  constructor
  · rintro ⟨⟨raw, rest'⟩, htext, h⟩
    dsimp only at h
    split at h
    next value' hparse =>
      cases h
      exact ⟨raw, htext, hparse⟩
    next => cases h
  · rintro ⟨raw, htext, hparse⟩
    refine ⟨_, htext, ?_⟩
    simp only [hparse]
    rfl

/-- A document with a text is read if the document is a string and the text is what is wanted. -/
theorem decode_parsed_eq_ok_iff {parse : String → Except ParseError α} :
    decode (parsed parse) document = .ok value ↔
      ∃ raw, decode text document = .ok raw ∧ parse raw = .ok value := by
  simp only [decode_eq_ok_iff, parsed_eq_ok_iff]
  constructor
  · rintro ⟨rest, ⟨raw, htext, hparse⟩, hrest⟩
    exact ⟨raw, ⟨rest, htext, hrest⟩, hparse⟩
  · rintro ⟨raw, ⟨rest, htext, hrest⟩, hparse⟩
    exact ⟨rest, ⟨raw, htext, hparse⟩, hrest⟩

end decode

/-! ### Lists -/

theorem elements_of_more {α : Type} {element : Scanner α} {first : Bool} {s front rest after : Bytes}
    {value : α} {values : List α} {steps : Nat} (hnext : nextElement first s = .ok (true, front))
    (hvalue : element front = .ok (value, rest))
    (hvalues : elements element steps false rest = .ok (values, after)) :
    elements element (steps + 1) first s = .ok (value :: values, after) := by
  refine bind_eq_ok_iff.mpr ⟨_, hnext, ?_⟩
  simp only [if_true]
  exact bind_eq_ok_iff.mpr ⟨_, hvalue, bind_eq_ok_iff.mpr ⟨_, hvalues, rfl⟩⟩

theorem intercalate_cons {α : Type} (sep piece : List α) (pieces : List (List α)) :
    sep.intercalate (piece :: pieces) = piece ++ pieces.flatMap (sep ++ ·) := by
  induction pieces generalizing piece with
  | nil => simp
  | cons next pieces ih =>
    rw [List.intercalate_cons_cons, ih, List.flatMap_cons, List.append_assoc, List.append_assoc]

/-! ### Records -/

section members

variable {α : Type} {layout : Layout α} {steps : Nat} {first : Bool} {value : α}
  {s key after colon front rest : Bytes}

theorem members_of_key (hkey : Layout.nextKey first s = .ok (some key, after))
    (hfield : scanString key = .ok (layout.field, colon)) (hcolon : Layout.scanColon colon = .ok front)
    (hvalue : layout.value front = .ok (value, rest)) :
    layout.members (steps + 1) first none s = layout.members steps false (some value) rest := by
  rw [Layout.members]
  simp [hkey, hfield, hcolon, hvalue, bind, Except.bind]

theorem members_of_end (hend : Layout.nextKey first s = .ok (none, rest)) :
    layout.members (steps + 1) first (some value) s = .ok (value, rest) :=
  bind_eq_ok_iff.mpr ⟨_, hend, rfl⟩

end members

/-! ### What is read -/

section read

variable {α : Type} {s rest : Bytes}

theorem wrongType_ne_ok (expected : String) (s : Bytes) (value : α) :
    wrongType expected s ≠ .ok value := by
  intro h
  unfold wrongType at h
  split at h
  all_goals try split_ifs at h
  all_goals simp [bind_eq_ok_iff, faultBefore, faultAt] at h

/-- The members of a list are read one by one. -/
theorem exists_of_mem_elements {element : Scanner α} {steps : Nat} {first : Bool} {values : List α}
    (h : elements element steps first s = .ok (values, rest)) {value : α} (hvalue : value ∈ values) :
    ∃ s rest, element s = .ok (value, rest) := by
  induction steps generalizing first s values with
  | zero => cases h
  | succ steps ih =>
    obtain ⟨⟨more, s'⟩, _, h⟩ := bind_eq_ok_iff.mp h
    cases more with
    | false =>
      obtain ⟨rest', _, h⟩ := bind_eq_ok_iff.mp h
      cases h
      cases hvalue
    | true =>
      obtain ⟨⟨value', after⟩, helement, h⟩ := bind_eq_ok_iff.mp h
      obtain ⟨⟨values', after'⟩, hvalues, h⟩ := bind_eq_ok_iff.mp h
      cases h
      rcases List.mem_cons.mp hvalue with rfl | hvalue
      · exact ⟨s', after, helement⟩
      · exact ih hvalues hvalue

theorem exists_of_mem_list {element : Scanner α} {values : List α}
    (h : list element s = .ok (values, rest)) {value : α} (hvalue : value ∈ values) :
    ∃ s rest, element s = .ok (value, rest) := by
  unfold list at h
  split at h
  · exact exists_of_mem_elements h hvalue
  · exact absurd h (wrongType_ne_ok _ _ _)

end read

section record

variable {α : Type} {layout : Layout α} {p : α → Prop} {s rest : Bytes} {value : α}

theorem forall_of_finish {found : Option α} {missing : Except Cause α}
    (hfound : ∀ value ∈ found, p value) (hmissing : ∀ value, missing = .ok value → p value)
    (h : Layout.finish found missing s = .ok value) : p value := by
  unfold Layout.finish at h
  split at h
  next value' _ =>
    cases h
    exact hfound _ rfl
  next value' =>
    cases h
    exact hmissing _ rfl
  next => cases h

/-- Whatever members an object has, the value that is found on the way is kept to the end. -/
theorem forall_of_members (hvalue : ∀ s value rest, layout.value s = .ok (value, rest) → p value)
    (hmissing : ∀ value, layout.whenMissing = .ok value → p value) {steps : Nat} {first : Bool}
    {found : Option α} (hfound : ∀ value ∈ found, p value)
    (h : layout.members steps first found s = .ok (value, rest)) : p value := by
  induction steps generalizing first found s with
  | zero => cases h
  | succ steps ih =>
    obtain ⟨⟨key?, after⟩, _, h⟩ := bind_eq_ok_iff.mp h
    cases key? with
    | none =>
      obtain ⟨value', hfinish, h⟩ := bind_eq_ok_iff.mp h
      cases h
      exact forall_of_finish hfound hmissing hfinish
    | some key =>
      obtain ⟨⟨name, afterKey⟩, _, h⟩ := bind_eq_ok_iff.mp h
      dsimp only at h
      split_ifs at h
      · cases h
      · -- the field, for the first time
        obtain ⟨front, _, h⟩ := bind_eq_ok_iff.mp h
        obtain ⟨⟨value', afterValue⟩, hread, h⟩ := bind_eq_ok_iff.mp h
        have hfound' : ∀ value ∈ some value', p value := by
          rintro _ ⟨⟩
          exact hvalue _ _ _ hread
        exact ih hfound' h
      · -- an unknown key, whose value is passed over
        obtain ⟨front, _, h⟩ := bind_eq_ok_iff.mp h
        obtain ⟨afterValue, _, h⟩ := bind_eq_ok_iff.mp h
        exact ih hfound h

/-- The value of a record comes from its field, or stands for a missing one. -/
theorem forall_of_record (hvalue : ∀ s value rest, layout.value s = .ok (value, rest) → p value)
    (hmissing : ∀ value, layout.whenMissing = .ok value → p value)
    (hshort : ∀ value, layout.whenShort = .ok value → p value)
    (h : layout.record s = .ok (value, rest)) : p value := by
  unfold Layout.record at h
  split at h
  · exact forall_of_members hvalue hmissing (by rintro _ ⟨⟩) h
  · obtain ⟨⟨more, front⟩, _, h⟩ := bind_eq_ok_iff.mp h
    cases more with
    | false =>
      obtain ⟨value', hfinish, h⟩ := bind_eq_ok_iff.mp h
      obtain ⟨rest', _, h⟩ := bind_eq_ok_iff.mp h
      cases h
      exact forall_of_finish (by rintro _ ⟨⟩) hshort hfinish
    | true =>
      obtain ⟨⟨value', after⟩, hread, h⟩ := bind_eq_ok_iff.mp h
      obtain ⟨rest', _, h⟩ := bind_eq_ok_iff.mp h
      cases h
      exact hvalue _ _ _ hread
  · exact absurd h (wrongType_ne_ok _ _ _)

end record

/-! ### Schedules -/

/-- The characters in front of a member that is not the first one. -/
def memberGap : List Char := ",\n    ".toList

/-- The characters behind the last member. -/
def listEnd : List Char := "\n  ]".toList

variable [ZoneDatabase] {schedule : Schedule}

theorem decode_ofSchedule (h : schedule.WellFormed) :
    decode Json.schedule (Text.utf8 (ofSchedule schedule).toList) = .ok schedule := by
  rw [ofSchedule, String.toList_ofList]
  refine decode_eq_ok_iff.mpr ⟨[], ?_, rfl⟩
  have hread := parsed_stringChars (Schedule.parse_text h) []
  rwa [List.append_nil] at hread

theorem expression_stringChars {e : Expression} (h : e.WellFormed) (rest : Bytes) :
    expression (Text.utf8 (stringChars e.chars) ++ rest) = .ok (e, rest) :=
  parsed_stringChars (Expression.parse_text h) rest

theorem memberLines_cons (e : Expression) (members : List Expression) :
    memberLines (e :: members) = "[\n    ".toList ++ (stringChars e.chars ++
      ((members.flatMap fun e => memberGap ++ stringChars e.chars) ++ listEnd)) := by
  rw [memberLines, List.map_cons, intercalate_cons, List.flatMap_map]
  · simp only [List.append_assoc]
    rfl
  · exact List.cons_ne_nil _ _

/-- The members behind the first one are read, and the end of the list. -/
theorem elements_rest {members : List Expression} (h : ∀ e ∈ members, e.WellFormed) {steps : Nat}
    (hsteps : members.length < steps) (rest : Bytes) :
    elements expression steps false
      (Text.utf8 (members.flatMap fun e => memberGap ++ stringChars e.chars)
        ++ (Text.utf8 listEnd ++ rest)) = .ok (members, rest) := by
  obtain ⟨steps, rfl⟩ := Nat.exists_eq_succ_of_ne_zero (show steps ≠ 0 by omega)
  induction members generalizing steps with
  | nil => rfl
  | cons e members ih =>
    obtain ⟨he, hmembers⟩ := List.forall_mem_cons.mp h
    rw [List.length_cons] at hsteps
    obtain ⟨steps, rfl⟩ := Nat.exists_eq_succ_of_ne_zero (show steps ≠ 0 by omega)
    rw [List.flatMap_cons, Text.utf8_append, Text.utf8_append, List.append_assoc, List.append_assoc]
    exact elements_of_more rfl (expression_stringChars he _) (ih hmembers steps (by omega))

/-- Each member behind the first one has a byte at least. -/
theorem length_le_length_utf8_rest (members : List Expression) : members.length
    ≤ (Text.utf8 (members.flatMap fun e => memberGap ++ stringChars e.chars)).length := by
  induction members with
  | nil => exact Nat.zero_le _
  | cons e members ih =>
    have hgap : (Text.utf8 memberGap).length = 6 := rfl
    rw [List.flatMap_cons, Text.utf8_append, Text.utf8_append, List.length_append, List.length_append,
      List.length_cons, hgap]
    omega

theorem list_memberLines {members : List Expression} (h : ∀ e ∈ members, e.WellFormed) (rest : Bytes) :
    list expression (Text.utf8 (memberLines members) ++ rest) = .ok (members, rest) := by
  cases members with
  | nil => rfl
  | cons e members =>
    obtain ⟨he, hmembers⟩ := List.forall_mem_cons.mp h
    have hstart : Text.utf8 "[\n    ".toList = openList :: [0x0A, 0x20, 0x20, 0x20, 0x20] := rfl
    have hlength := length_le_length_utf8_rest members
    rw [memberLines_cons, Text.utf8_append, Text.utf8_append, Text.utf8_append, hstart]
    simp only [List.append_assoc, List.cons_append]
    -- the first member follows the bracket without a comma
    let afterFirst := Text.utf8 (members.flatMap fun e => memberGap ++ stringChars e.chars)
      ++ (Text.utf8 listEnd ++ rest)
    let front := Text.utf8 (stringChars e.chars) ++ afterFirst
    let start : Bytes := 0x0A :: 0x20 :: 0x20 :: 0x20 :: 0x20 :: front
    change elements expression (start.length + 1) true start = _
    have hsteps : members.length < start.length := by
      simp only [start, front, afterFirst, List.length_cons, List.length_append]
      omega
    exact elements_of_more (show nextElement true start = .ok (true, front) from rfl)
      (expression_stringChars he afterFirst) (elements_rest hmembers hsteps rest)

/-- The name of the field and what stands around it and the members. -/
theorem utf8_snapshotChars (schedule : Schedule) : Text.utf8 (snapshotChars schedule)
    = openObject :: 0x0A :: 0x20 :: 0x20 :: quote ::
      (Text.utf8 ("expressions".toList.flatMap escapeChar) ++ quote :: colon :: 0x20 ::
        (Text.utf8 (memberLines schedule.members) ++ [0x0A, closeObject])) := by
  have hstart : Text.utf8 "\x7b\n  \"expressions\": ".toList
      = openObject :: 0x0A :: 0x20 :: 0x20 :: quote ::
        (Text.utf8 ("expressions".toList.flatMap escapeChar) ++ [quote, colon, 0x20]) := by rfl
  have hend : Text.utf8 "\n\x7d".toList = [0x0A, closeObject] := by rfl
  have hparts (start middle stop : List Char) : Text.utf8 (start ++ middle ++ stop)
      = Text.utf8 start ++ (Text.utf8 middle ++ Text.utf8 stop) := by
    rw [Text.utf8_append, Text.utf8_append, List.append_assoc]
  refine (hparts _ _ _).trans ((congrArg₂ (· ++ ·) hstart (congrArg (_ ++ ·) hend)).trans ?_)
  simp only [List.cons_append, List.append_assoc, List.nil_append]

theorem record_snapshotChars (h : schedule.WellFormed) :
    snapshot.record (Text.utf8 (snapshotChars schedule)) = .ok (schedule, []) := by
  let field := "expressions".toList
  let members := Text.utf8 (memberLines schedule.members)
  have hlist : list expression (0x20 :: (members ++ [0x0A, closeObject]))
      = .ok (schedule.members, [0x0A, closeObject]) :=
    list_memberLines h [0x0A, closeObject]
  have hvalue : snapshot.value (0x20 :: (members ++ [0x0A, closeObject]))
      = .ok (schedule, [0x0A, closeObject]) :=
    map_eq_ok_iff.mpr ⟨_, hlist, rfl⟩
  have hfield := scanString_stringChars field (colon :: 0x20 :: (members ++ [0x0A, closeObject]))
  rw [String.ofList_toList] at hfield
  rw [utf8_snapshotChars]
  refine (members_of_key rfl hfield rfl hvalue).trans ?_
  exact members_of_end rfl

theorem decode_snapshotChars (h : schedule.WellFormed) :
    decode snapshot.record (Text.utf8 (snapshotChars schedule)) = .ok schedule :=
  decode_eq_ok_iff.mpr ⟨[], record_snapshotChars h, rfl⟩

theorem wellFormed_of_expression {e : Expression} {s rest : Bytes}
    (h : expression s = .ok (e, rest)) : e.WellFormed := by
  obtain ⟨raw, _, hparse⟩ := parsed_eq_ok_iff.mp h
  exact Expression.wellFormed_of_parse hparse

/-- However a document is laid out, the members of the schedule in it are read from texts. -/
theorem wellFormed_of_decode_snapshot {document : Bytes}
    (h : decode snapshot.record document = .ok schedule) : schedule.WellFormed := by
  obtain ⟨rest, hrecord, _⟩ := decode_eq_ok_iff.mp h
  refine forall_of_record (fun s value rest hvalue => ?_) (by rintro _ ⟨⟩) (by rintro _ ⟨⟩) hrecord
  obtain ⟨⟨members, rest'⟩, hlist, heq⟩ := map_eq_ok_iff.mp hvalue
  cases heq
  intro e he
  obtain ⟨front, after, hread⟩ := exists_of_mem_list hlist he
  exact wellFormed_of_expression hread

end Recurrence.Json
