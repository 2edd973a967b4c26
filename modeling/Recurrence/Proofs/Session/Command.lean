import Recurrence.Expression.Text
import Recurrence.Proofs.Instant.Rfc3339
import Recurrence.Session.Command

/-!
# What a line asks for

A line begins with the name of a command, and behind it comes a text (`Command.Begins`), of which the
command takes the first words (`Command.Asks`) or all of it.  Blanks around the line and around the text
do not matter (`Command.Begins.read_eq`).  A word can stand for a point in time (`Reference.Spelled`), or
two of them for a file and what is in it (`FileArgument.read_eq_file_iff`).
-/

namespace Recurrence

namespace Text

variable {s gap : List Char}

/-- Blanks at the end make no word. -/
theorem words_append_gap (hgap : ∀ c ∈ gap, isBlank c = true) : words (s ++ gap) = words s := by
  cases gap with
  | nil => rw [List.append_nil]
  | cons c gap =>
    obtain ⟨hc, hgap⟩ := List.forall_mem_cons.mp hgap
    rw [words_append_cons hc, words_eq_iff.mpr (.blanks hgap), List.append_nil]

/-- A text without the blanks at its end. -/
def trimEnd (s : List Char) : List Char :=
  (s.reverse.dropWhile isBlank).reverse

theorem trim_eq (s : List Char) : trim s = trimEnd (s.dropWhile isBlank) :=
  rfl

theorem exists_append_trimEnd (s : List Char) :
    ∃ gap, (∀ c ∈ gap, isBlank c = true) ∧ s = trimEnd s ++ gap := by
  refine ⟨(s.reverse.takeWhile isBlank).reverse, fun c hc => ?_, ?_⟩
  · exact List.mem_takeWhile_imp (List.mem_reverse.mp hc)
  · rw [trimEnd, ← List.reverse_append, List.takeWhile_append_dropWhile, List.reverse_reverse]

theorem words_trimEnd (s : List Char) : words (trimEnd s) = words s := by
  obtain ⟨gap, hgap, hs⟩ := exists_append_trimEnd s
  calc words (trimEnd s) = words (trimEnd s ++ gap) := (words_append_gap hgap).symm
    _ = words s := by rw [← hs]

theorem words_trim (s : List Char) : words (trim s) = words s := by
  have hgap : ∀ c ∈ s.takeWhile isBlank, isBlank c = true := fun _ => List.mem_takeWhile_imp
  calc words (trim s) = words (s.dropWhile isBlank) := words_trimEnd _
    _ = words (s.takeWhile isBlank ++ s.dropWhile isBlank) := (words_gap_append hgap).symm
    _ = words s := by rw [List.takeWhile_append_dropWhile]

/-- A word in front stays when the end is trimmed. -/
theorem trimEnd_append {word : List Char} (hword : ∀ c ∈ word, isBlank c = false) (s : List Char) :
    trimEnd (word ++ s) = word ++ trimEnd s := by
  have hkeep : word.reverse.dropWhile isBlank = word.reverse := by
    rw [List.dropWhile_eq_self_iff]
    intro hlen
    rw [hword _ (List.mem_reverse.mp (List.getElem_mem hlen))]
    exact Bool.false_ne_true
  rw [trimEnd, trimEnd, List.reverse_append, List.dropWhile_append]
  split_ifs with hempty
  · rw [hkeep, List.isEmpty_iff.mp hempty, List.reverse_reverse, List.reverse_nil, List.append_nil]
  · rw [List.reverse_append, List.reverse_reverse]

end Text

namespace Command

variable {line text text' : List Char} {name name' : String} {arguments : List (List Char)}

/-- A line begins with the name of a command, blanks in front of it apart, and then comes a text. -/
structure Begins (line : List Char) (name : String) (text : List Char) : Prop where
  ne : name.toList ≠ []
  word : ∀ c ∈ name.toList, Text.isBlank c = false
  split : ∃ gap, (∀ c ∈ gap, Text.isBlank c = true) ∧ line = gap ++ name.toList ++ text
  apart : ∀ c ∈ text.head?, Text.isBlank c = true

/-- A line begins with the name of a command and some arguments; it may have more of them. -/
def Asks (line : List Char) (name : String) (arguments : List (List Char)) : Prop :=
  ∃ text, Begins line name text ∧ arguments <+: Text.words text

theorem Begins.words_eq (h : Begins line name text) :
    Text.words line = name.toList :: Text.words text := by
  obtain ⟨hne, hword, ⟨gap, hgap, rfl⟩, hapart⟩ := h
  rw [List.append_assoc, Text.words_gap_append hgap, Text.words_word_append hne hword hapart]

theorem Begins.dropWhile_eq (h : Begins line name text) :
    line.dropWhile Text.isBlank = name.toList ++ text := by
  obtain ⟨hne, hword, ⟨gap, hgap, rfl⟩, _⟩ := h
  obtain ⟨c, word, hcons⟩ := List.exists_cons_of_ne_nil hne
  rw [List.append_assoc, List.dropWhile_append_of_pos hgap, hcons, List.cons_append,
    List.dropWhile_cons_of_neg]
  rw [hword c (hcons ▸ List.mem_cons_self ..)]
  exact Bool.false_ne_true

/-- A line begins with one name only. -/
theorem Begins.unique (h : Begins line name text) (h' : Begins line name' text') :
    name = name' ∧ text = text' := by
  have hwords := h.words_eq.symm.trans h'.words_eq
  have hname : name = name' := String.toList_injective (List.cons.inj hwords).1
  subst hname
  exact ⟨rfl, List.append_cancel_left (h.dropWhile_eq.symm.trans h'.dropWhile_eq)⟩

/-- A command is read from its name and the text behind it, blanks around this text apart. -/
theorem Begins.read_eq (h : Begins line name text) : ∃ content,
    Text.words content = Text.words text ∧ read line = ofName name content (Text.words text) := by
  have hwords : Text.words (Text.trim line) = name.toList :: Text.words text :=
    (Text.words_trim line).trans h.words_eq
  have hdrop : (Text.trim line).drop name.toList.length = Text.trimEnd text := by
    rw [Text.trim_eq, h.dropWhile_eq, Text.trimEnd_append h.word, List.drop_left]
  refine ⟨Text.trim ((Text.trim line).drop name.toList.length), ?_, ?_⟩
  · rw [hdrop, Text.words_trim, Text.words_trimEnd]
  · rw [read, hwords]
    dsimp only
    rw [String.ofList_toList]

/-- The names of all commands. -/
def names : List String :=
  ["help", "quit", "exit", "parse", "next", "at", "add", "remove", "show", "upcoming", "save", "load"]

end Command

/-! ### Arguments -/

/-- A word that stands for the present, or spells a stamp. -/
inductive Reference.Spelled : List Char → Reference → Prop
  | now : Spelled "now".toList .now
  | moment {word : List Char} {stamp : Stamp} (spells : Stamp.Spells word stamp) :
      Spelled word (.moment stamp)

/-- The point in time that is referred to. -/
def Reference.stamp (now : Stamp) : Reference → Stamp
  | .now => now
  | .moment stamp => stamp

theorem FileFormat.ofName?_eq_some_iff {format : FileFormat} {name : String} :
    ofName? name = some format ↔ format.name = name := by
  constructor
  · intro h
    simpa using List.find?_some h
  · rintro rfl
    cases format <;> decide

end Recurrence
