import VariantMerge.Proofs.Emit.Indentation

/-!
# Runs of a writer

A writer is asked for lines, scopes and constructs that are made of these (`SourceWriter.Request`). It
refuses to close a scope where none is open, and is then as it was. Each request comes down to marks,
which are the lines, the gaps, and the beginnings and ends of scopes that it is made of
(`SourceWriter.run_eq`). A mark has entries: the lines that are meant by it, each with its depth. What
a writer has written is the entries of all marks, indented by their depths (`SourceWriter.splitOn_run`).
-/

namespace VariantMerge

namespace SourceWriter

/-! ## Requests -/

/-- What a writer can be asked to write. -/
inductive Request where
  | line (text : String)
  | blank
  | beginScope (header : String)
  | endScope (suffix : String)
  | beginModule (visibility name : String)
  | endModule
  | uses (texts : List String)
  | attr (body : String)
  | derives (names : List String)
  | enumeration (visibility name : String) (members : List String)
  | field (visibility name type : String)
  | binding (isMut : Bool) (name value : String)
  deriving DecidableEq, Repr

namespace Request

/-- The writer after a request, unless the request is refused. -/
def answer (w : SourceWriter) : Request → Except Failure SourceWriter
  | line text => .ok (w.line text)
  | blank => .ok w.blank
  | beginScope header => .ok (w.beginScope header)
  | endScope suffix => w.endScopeWith suffix
  | beginModule visibility name => .ok (w.beginModule visibility name)
  | endModule => w.endScope
  | uses texts => .ok (w.uses texts)
  | attr body => .ok (w.attr body)
  | derives names => .ok (w.derives names)
  | enumeration visibility name members => .ok (w.enumeration visibility name members)
  | field visibility name type => .ok (w.field visibility name type)
  | binding isMut name value => .ok (w.binding isMut name value)

/-- The texts that a request is made with. -/
def texts : Request → List String
  | line text | beginScope text | endScope text | attr text => [text]
  | blank | endModule => []
  | beginModule visibility name => [visibility, name]
  | uses texts | derives texts => texts
  | enumeration visibility name members => visibility :: name :: members
  | field visibility name type => [visibility, name, type]
  | binding _ name value => [name, value]

/-- How many scopes a request opens. -/
def opens : Request → Nat
  | beginScope _ | beginModule _ _ | enumeration _ _ _ => 1
  | _ => 0

/-- How many scopes a request closes, if the writer does not refuse it. -/
def closes (w : SourceWriter) : Request → Nat
  | endScope suffix => if (w.endScopeWith suffix).isOk then 1 else 0
  | endModule => if w.endScope.isOk then 1 else 0
  | enumeration _ _ _ => 1
  | _ => 0

end Request

/-- The writer after a request. A request that is refused leaves it as it was. -/
def after (w : SourceWriter) (request : Request) : SourceWriter :=
  match request.answer w with
  | .ok next => next
  | .error _ => w

/-- The writer after requests. -/
def run (w : SourceWriter) (requests : List Request) : SourceWriter :=
  requests.foldl after w

/-- How many scopes requests open. -/
def opened : List Request → Nat
  | [] => 0
  | request :: rest => request.opens + opened rest

/-- How many scopes are closed in the course of requests. -/
def closed (w : SourceWriter) : List Request → Nat
  | [] => 0
  | request :: rest => request.closes w + (w.after request).closed rest

/-! ## Marks -/

/-- A step of a writer, which writes one line at most. -/
inductive Mark where
  | text (text : String)
  | gap
  | opening (header : String)
  | closing (suffix : String)
  deriving DecidableEq, Repr

/-- The steps that a request is made of. -/
def Request.marks : Request → List Mark
  | line text => [.text text]
  | blank => [.gap]
  | beginScope header => [.opening header]
  | endScope suffix => [.closing suffix]
  | beginModule visibility name => [.opening (joinWords [visibility, "mod", name])]
  | endModule => [.closing ""]
  | uses texts => (distinctTrimmed texts).map .text
  | attr body => [.text ("#[" ++ body ++ "]")]
  | derives names =>
    if names.isEmpty then []
    else [.text ("#[" ++ ("derive(" ++ String.intercalate ", " names ++ ")") ++ "]")]
  | enumeration visibility name members =>
    .opening (joinWords [visibility, "enum", name]) ::
      (members.map fun member => .text (member ++ ",")) ++ [.closing ""]
  | field visibility name type => [.text (fieldText visibility name type)]
  | binding isMut name value => [.text (bindingText isMut name value)]

/-- The steps of requests. -/
def marks (requests : List Request) : List Mark :=
  requests.flatMap Request.marks

/-- The writer after a step. A scope is closed only if one is open. -/
def put (w : SourceWriter) : Mark → SourceWriter
  | .text text => w.line text
  | .gap => w.blank
  | .opening header => w.beginScope header
  | .closing suffix =>
    match w.scopes with
    | [] => w
    | _ :: _ => w.close suffix

/-- The writer after steps. -/
def putAll (w : SourceWriter) (marks : List Mark) : SourceWriter :=
  marks.foldl put w

variable {w : SourceWriter}

/-- Marks are put one after the other. -/
theorem putAll_append (w : SourceWriter) (early late : List Mark) :
    w.putAll (early ++ late) = (w.putAll early).putAll late :=
  List.foldl_append

/-- Where a scope is open, a closing mark closes it. -/
theorem put_closing_of_ne_nil (some_ : w.scopes ≠ []) (suffix : String) :
    w.put (.closing suffix) = w.close suffix := by
  obtain ⟨header, outer, scopes⟩ := List.exists_cons_of_ne_nil some_
  rw [put, scopes]

/-- A request to close a scope is a closing mark. -/
theorem after_endScope (w : SourceWriter) (suffix : String) :
    w.after (.endScope suffix) = w.put (.closing suffix) := by
  unfold after put
  rw [Request.answer, endScopeWith]
  cases w.scopes <;> rfl

/-- A request is made of its steps. -/
theorem after_eq (w : SourceWriter) (request : Request) :
    w.after request = w.putAll request.marks := by
  cases request with
  | endScope suffix => exact after_endScope w suffix
  | endModule => exact after_endScope w ""
  | uses texts =>
      change (distinctTrimmed texts).foldl line w = ((distinctTrimmed texts).map Mark.text).foldl put w
      rw [List.foldl_map]
      rfl
  | derives names =>
      change w.derives names = w.putAll (if names.isEmpty then [] else _)
      rw [derives]
      split <;> rfl
  | enumeration visibility name members =>
      -- The members leave the scope open, so there is one to be closed.
      let filled := members.foldl (fun w member => w.line (member ++ ","))
        (w.beginScope (joinWords [visibility, "enum", name]))
      have put_ : (w.beginScope (joinWords [visibility, "enum", name])).putAll
          (members.map fun member => .text (member ++ ",")) = filled :=
        List.foldl_map
      have inside : filled.scopes = joinWords [visibility, "enum", name] :: w.scopes := by
        change (members.foldl (fun w member => line w (member ++ ",")) _).scopes = _
        rw [← List.foldl_map, foldl_line_scopes, beginScope_scopes]
      change filled.close "" = (w.beginScope (joinWords [visibility, "enum", name])).putAll
        ((members.map fun member => .text (member ++ ",")) ++ [.closing ""])
      rw [putAll_append, put_]
      exact (put_closing_of_ne_nil (by simp [inside]) "").symm
  | line text => rfl
  | blank => rfl
  | beginScope header => rfl
  | beginModule visibility name => rfl
  | attr body => rfl
  | field visibility name type => rfl
  | binding isMut name value => rfl

/-- **A run is made of steps.** -/
theorem run_eq (w : SourceWriter) (requests : List Request) :
    w.run requests = w.putAll (marks requests) := by
  induction requests generalizing w with
  | nil => rfl
  | cons request rest ih =>
      rw [marks, List.flatMap_cons, putAll_append, ← after_eq]
      exact ih (w.after request)

/-! ## Depths -/

/-- A line opens and closes nothing. -/
@[simp] theorem depth_line (w : SourceWriter) (text : String) : (w.line text).depth = w.depth :=
  congrArg List.length (w.line_scopes text)

/-- An empty line opens and closes nothing. -/
@[simp] theorem depth_blank (w : SourceWriter) : w.blank.depth = w.depth :=
  congrArg List.length w.blank_scopes

/-- A scope that begins is one more. -/
@[simp] theorem depth_beginScope (w : SourceWriter) (header : String) :
    (w.beginScope header).depth = w.depth + 1 := rfl

/-- A scope that is closed is one less. -/
@[simp] theorem depth_close (w : SourceWriter) (suffix : String) :
    (w.close suffix).depth = w.depth - 1 := by
  rw [depth, close_scopes, List.length_tail, depth]

/-- Where no scope is open, none can be closed. -/
theorem endScopeWith_of_depth_eq_zero (top : w.depth = 0) (suffix : String) :
    w.endScopeWith suffix = .error (.internal .unopenedScope) := by
  rw [endScopeWith, List.length_eq_zero_iff.mp top]

/-- A scope that is open can be closed. -/
theorem endScopeWith_of_depth_ne_zero (inside : w.depth ≠ 0) (suffix : String) :
    w.endScopeWith suffix = .ok (w.close suffix) := by
  unfold endScopeWith
  split
  next none_ => exact absurd (congrArg List.length none_) inside
  next => rfl

/-- A request that closes a scope does so unless no scope is open. -/
theorem depth_after_endScope (w : SourceWriter) (suffix : String) :
    (w.after (.endScope suffix)).depth + (if (w.endScopeWith suffix).isOk then 1 else 0) =
      w.depth := by
  unfold after
  rw [Request.answer]
  by_cases top : w.depth = 0
  · rw [endScopeWith_of_depth_eq_zero top]
    rfl
  · rw [endScopeWith_of_depth_ne_zero top]
    change (w.close suffix).depth + 1 = w.depth
    rw [depth_close]
    omega

/-- **The depth counts.** What was open and what was opened is closed, or still open. -/
theorem depth_after (w : SourceWriter) (request : Request) :
    (w.after request).depth + request.closes w = w.depth + request.opens := by
  cases request with
  | endScope suffix => exact depth_after_endScope w suffix
  | endModule => exact depth_after_endScope w ""
  | uses texts => exact congrArg List.length (foldl_line_scopes (distinctTrimmed texts) w)
  | derives names =>
      change (w.derives names).depth = w.depth
      rw [derives]
      split
      · rfl
      · exact depth_line w _
  | enumeration visibility name members =>
      have members_ (w : SourceWriter) :
          (members.foldl (fun w member => w.line (member ++ ",")) w).depth = w.depth := by
        rw [← List.foldl_map]
        exact congrArg List.length (foldl_line_scopes _ w)
      change (close _ "").depth + 1 = w.depth + 1
      rw [depth_close, members_, depth_beginScope]
      rfl
  | line text => exact depth_line w text
  | blank => exact depth_blank w
  | beginScope header => rfl
  | beginModule visibility name => rfl
  | attr body => exact depth_line w _
  | field visibility name type => exact depth_line w _
  | binding isMut name value => exact depth_line w _

/-- **The depth of a writer** is how many scopes have been opened and not been closed. -/
theorem depth_run (w : SourceWriter) (requests : List Request) :
    (w.run requests).depth + w.closed requests = w.depth + opened requests := by
  induction requests generalizing w with
  | nil => rfl
  | cons request rest ih =>
      have step := depth_after w request
      have later := ih (w.after request)
      change ((w.after request).run rest).depth + (request.closes w + (w.after request).closed rest) =
        w.depth + (request.opens + opened rest)
      omega

/-- A request that is refused may as well not be made. -/
theorem run_skip {requests more : List Request} {request : Request} {failure : Failure}
    (refused : request.answer (w.run requests) = .error failure) :
    w.run (requests ++ request :: more) = w.run (requests ++ more) := by
  have same : (w.run requests).after request = w.run requests := by rw [after, refused]
  have cut (more : List Request) : w.run (requests ++ more) = (w.run requests).run more :=
    List.foldl_append
  rw [cut, cut]
  exact congrArg (run · more) same

/-! ## Entries -/

/-- A line as it is meant: its text, and how many scopes it stands in. -/
structure Entry where
  depth : Nat
  text : String
  deriving DecidableEq, Repr

/-- The line of an entry: its text after one unit of indentation for each scope. An empty line is not
indented. -/
def Entry.written (unit : String) (entry : Entry) : String :=
  if entry.text.isEmpty then ""
  else String.join (List.replicate entry.depth unit) ++ entry.text

/-- The line that opens a scope. -/
def openingText (header : String) : String :=
  if header.isEmpty then "\x7b" else header ++ " \x7b"

/-- The entries of a step. The brace that closes a scope stands outside of it. -/
def Mark.entries (w : SourceWriter) : Mark → List Entry
  | text content => [⟨w.depth, content⟩]
  | gap => if w.takesBlank then [⟨w.depth, ""⟩] else []
  | opening header => [⟨w.depth, openingText header⟩]
  | closing suffix => if w.depth = 0 then [] else [⟨w.depth - 1, "\x7d" ++ suffix⟩]

/-- The entries of steps that are made one after the other. -/
def entries (w : SourceWriter) : List Mark → List Entry
  | [] => []
  | mark :: rest => mark.entries w ++ entries (w.put mark) rest

/-- The entries of later marks depend on those before. -/
theorem entries_append (w : SourceWriter) (early late : List Mark) :
    w.entries (early ++ late) = w.entries early ++ (w.putAll early).entries late := by
  induction early generalizing w with
  | nil => rfl
  | cons mark rest ih =>
      rw [List.cons_append, entries, entries, ih (w.put mark), List.append_assoc]
      rfl

/-- A line adds its entry, and nothing else. -/
theorem line_eq (w : SourceWriter) (text : String) :
    w.line text = { w with lines := w.lines ++ [Entry.written w.unit ⟨w.depth, text⟩] } := by
  unfold line Entry.written
  split <;> rfl

/-- A line keeps the unit of indentation. -/
theorem line_unit (w : SourceWriter) (text : String) : (w.line text).unit = w.unit := by
  rw [line_eq]

/-- A line is written at the depth at which it was asked for. -/
theorem line_lines (w : SourceWriter) (text : String) :
    (w.line text).lines = w.lines ++ [Entry.written w.unit ⟨w.depth, text⟩] := by
  rw [line_eq]

/-- No mark changes the unit of indentation. -/
theorem put_unit (w : SourceWriter) (mark : Mark) : (w.put mark).unit = w.unit := by
  cases mark with
  | text content => exact line_unit w content
  | gap =>
      rw [put, blank]
      split
      · exact line_unit w ""
      · rfl
  | opening header => exact line_unit w _
  | closing suffix =>
      rw [put]
      split
      · rfl
      · exact line_unit { w with scopes := w.scopes.tail } _

/-- A mark adds its own entries, each at its depth. -/
theorem put_lines (w : SourceWriter) (mark : Mark) :
    (w.put mark).lines = w.lines ++ (mark.entries w).map (Entry.written w.unit) := by
  cases mark with
  | text content => exact line_lines w content
  | gap =>
      rw [put, blank, Mark.entries]
      split
      · exact line_lines w ""
      · exact (List.append_nil _).symm
  | opening header => exact line_lines w _
  | closing suffix =>
      rw [Mark.entries]
      by_cases top : w.depth = 0
      · rw [if_pos top, put, List.length_eq_zero_iff.mp top]
        exact (List.append_nil _).symm
      · rw [if_neg top, put_closing_of_ne_nil (fun none_ => top (congrArg List.length none_))]
        have written := line_lines { w with scopes := w.scopes.tail } ("\x7d" ++ suffix)
        rwa [depth, List.length_tail] at written

/-- The lines are the entries of all marks, indented. -/
theorem putAll_lines (w : SourceWriter) (marks : List Mark) :
    (w.putAll marks).lines = w.lines ++ (w.entries marks).map (Entry.written w.unit) := by
  induction marks generalizing w with
  | nil => exact (List.append_nil _).symm
  | cons mark rest ih =>
      have later := ih (w.put mark)
      rw [put_lines, put_unit, List.append_assoc, ← List.map_append] at later
      exact later

/-! ## Lines of the text -/

/-- The text has no line feed. -/
def IsOneLine (text : String) : Prop :=
  '\n' ∉ text.toList

instance (text : String) : Decidable (IsOneLine text) :=
  inferInstanceAs (Decidable (¬ _))

/-- Two pieces of one line are a piece of one line. -/
theorem IsOneLine.append {text more : String} (first : IsOneLine text) (second : IsOneLine more) :
    IsOneLine (text ++ more) := by
  rw [IsOneLine, String.toList_append, List.mem_append]
  exact not_or.mpr ⟨first, second⟩

/-- Pieces of one line, with one between each two, are a piece of one line. -/
theorem IsOneLine.intercalate {separator : String} {texts : List String}
    (between : IsOneLine separator) (each : ∀ text ∈ texts, IsOneLine text) :
    IsOneLine (String.intercalate separator texts) := by
  induction texts with
  | nil => exact List.not_mem_nil
  | cons first rest ih =>
      obtain ⟨here, later⟩ := List.forall_mem_cons.mp each
      cases rest with
      | nil => rwa [String.intercalate_singleton]
      | cons second rest =>
          rw [String.intercalate_cons_cons]
          exact (here.append between).append (ih later)

/-- What a step writes besides punctuation. -/
def Mark.content : Mark → String
  | text content | opening content | closing content => content
  | gap => ""

/-- Neither trimming nor leaving out makes more lines. -/
theorem isOneLine_distinctTrimmed {texts : List String} (each : ∀ text ∈ texts, IsOneLine text) :
    ∀ text ∈ distinctTrimmed texts, IsOneLine text := by
  intro trimmed listed
  obtain ⟨text, member, rfl⟩ :=
    List.mem_map.mp (List.mem_of_mem_filter (List.mem_eraseDups.mp listed))
  rw [IsOneLine, String.toList_ofList]
  intro feed
  exact each text member ((List.dropWhile_suffix Text.isBlank).subset
    ((List.rdropWhile_prefix Text.isBlank _).subset feed))

/-- The head of a declaration is one line if its words are. -/
theorem isOneLine_joinWords {visibility kind name : String} (first : IsOneLine visibility)
    (second : IsOneLine kind) (third : IsOneLine name) :
    IsOneLine (joinWords [visibility, kind, name]) := by
  refine IsOneLine.intercalate (by decide) fun word listed => ?_
  have words := List.mem_of_mem_filter listed
  simp only [List.mem_cons, List.not_mem_nil, or_false] at words
  obtain rfl | rfl | rfl := words
  · exact first
  · exact second
  · exact third

/-- A field is one line if its parts are. -/
theorem isOneLine_fieldText {visibility name type : String} (first : IsOneLine visibility)
    (second : IsOneLine name) (third : IsOneLine type) :
    IsOneLine (fieldText visibility name type) := by
  have front : IsOneLine (visibilityPrefix visibility) := by
    rw [visibilityPrefix]
    split
    · decide
    · exact first.append (by decide)
  exact (((front.append second).append (by decide)).append third).append (by decide)

/-- A binding is one line if its parts are. -/
theorem isOneLine_bindingText (isMut : Bool) {name value : String} (first : IsOneLine name)
    (second : IsOneLine value) : IsOneLine (bindingText isMut name value) := by
  have front : IsOneLine (if isMut then "let mut " else "let ") := by cases isMut <;> decide
  exact (((front.append first).append (by decide)).append second).append (by decide)

/-- A request without line feeds in its texts is made of steps without line feeds. -/
theorem Request.isOneLine_marks {request : Request}
    (oneLine : ∀ text ∈ request.texts, IsOneLine text) :
    ∀ mark ∈ request.marks, IsOneLine mark.content := by
  have empty : IsOneLine "" := by decide
  cases request with
  | line text | beginScope text | endScope text =>
      exact List.forall_mem_singleton.mpr (oneLine text List.mem_cons_self)
  | blank => exact List.forall_mem_singleton.mpr empty
  | endModule => exact List.forall_mem_singleton.mpr empty
  | beginModule visibility name =>
      obtain ⟨first, others⟩ := List.forall_mem_cons.mp oneLine
      have second := List.forall_mem_singleton.mp others
      exact List.forall_mem_singleton.mpr (isOneLine_joinWords first (by decide) second)
  | uses texts => exact List.forall_mem_map.mpr (isOneLine_distinctTrimmed oneLine)
  | attr body =>
      have here := oneLine body List.mem_cons_self
      exact List.forall_mem_singleton.mpr (IsOneLine.append (.append (by decide) here) (by decide))
  | derives names =>
      rw [marks]
      split
      · exact fun _ listed => absurd listed List.not_mem_nil
      · have joined : IsOneLine (String.intercalate ", " names) := .intercalate (by decide) oneLine
        have body : IsOneLine ("derive(" ++ String.intercalate ", " names ++ ")") :=
          .append (.append (by decide) joined) (by decide)
        exact List.forall_mem_singleton.mpr (IsOneLine.append (.append (by decide) body) (by decide))
  | enumeration visibility name members =>
      obtain ⟨first, others⟩ := List.forall_mem_cons.mp oneLine
      obtain ⟨second, each⟩ := List.forall_mem_cons.mp others
      have inside : ∀ mark ∈ members.map fun member => Mark.text (member ++ ","),
          IsOneLine mark.content :=
        List.forall_mem_map.mpr fun member listed => (each member listed).append (by decide)
      refine List.forall_mem_append.mpr ⟨List.forall_mem_cons.mpr ⟨?_, inside⟩, ?_⟩
      · exact isOneLine_joinWords first (by decide) second
      · exact List.forall_mem_singleton.mpr empty
  | field visibility name type =>
      obtain ⟨first, others⟩ := List.forall_mem_cons.mp oneLine
      obtain ⟨second, last⟩ := List.forall_mem_cons.mp others
      exact List.forall_mem_singleton.mpr
        (isOneLine_fieldText first second (List.forall_mem_singleton.mp last))
  | binding isMut name value =>
      obtain ⟨first, last⟩ := List.forall_mem_cons.mp oneLine
      exact List.forall_mem_singleton.mpr
        (isOneLine_bindingText isMut first (List.forall_mem_singleton.mp last))

/-- The entries of a mark are one line each if its content is. -/
theorem Mark.isOneLine_entries {mark : Mark} (oneLine : IsOneLine mark.content) (w : SourceWriter) :
    ∀ entry ∈ mark.entries w, IsOneLine entry.text := by
  cases mark with
  | text content => exact List.forall_mem_singleton.mpr oneLine
  | gap =>
      rw [entries]
      have empty : IsOneLine "" := by decide
      split
      · exact List.forall_mem_singleton.mpr empty
      · exact fun _ listed => absurd listed List.not_mem_nil
  | opening header =>
      refine List.forall_mem_singleton.mpr ?_
      change IsOneLine (openingText header)
      rw [openingText]
      split
      · decide
      · exact oneLine.append (by decide)
  | closing suffix =>
      rw [entries]
      split
      · exact fun _ listed => absurd listed List.not_mem_nil
      · exact List.forall_mem_singleton.mpr (IsOneLine.append (by decide) oneLine)

/-- The entries of marks are one line each if all contents are. -/
theorem isOneLine_entries {marks : List Mark} (oneLine : ∀ mark ∈ marks, IsOneLine mark.content)
    (w : SourceWriter) : ∀ entry ∈ w.entries marks, IsOneLine entry.text := by
  induction marks generalizing w with
  | nil => exact fun _ listed => absurd listed List.not_mem_nil
  | cons mark rest ih =>
      obtain ⟨here, later⟩ := List.forall_mem_cons.mp oneLine
      exact List.forall_mem_append.mpr ⟨Mark.isOneLine_entries here w, ih later (w.put mark)⟩

/-- Indentation adds no line. -/
theorem Entry.isOneLine_written {unit : String} (indents : Text.IsIndent unit.toList) {entry : Entry}
    (oneLine : IsOneLine entry.text) : IsOneLine (entry.written unit) := by
  unfold written
  split
  · decide
  · exact IsOneLine.append (fun feed => (isIndent_join indents entry.depth _ feed).2.1 rfl) oneLine

/-- A text of lines is split into these lines, with nothing behind the last one. -/
theorem splitOn_feeds {lines : List String} (oneLine : ∀ line ∈ lines, IsOneLine line) :
    (Text.feeds lines).splitOn '\n' = lines.map String.toList ++ [[]] := by
  have joined : Text.feeds lines = List.intercalate ['\n'] (lines.map String.toList ++ [[]]) := by
    clear oneLine
    induction lines with
    | nil => rfl
    | cons line rest ih =>
        have nonempty : rest.map String.toList ++ [[]] ≠ [] := by simp
        obtain ⟨next, more, found⟩ := List.exists_cons_of_ne_nil nonempty
        rw [List.map_cons, List.cons_append, found, List.intercalate_cons_cons, ← found, ← ih]
        rfl
  rw [joined]
  refine List.splitOn_intercalate '\n' ?_ (by simp)
  exact List.forall_mem_append.mpr
    ⟨List.forall_mem_map.mpr oneLine, List.forall_mem_singleton.mpr List.not_mem_nil⟩

/-- **The lines of a text.** What is written in the course of requests without line feeds is one line
for each entry, after which the text ends. -/
theorem splitOn_run {unit : String} (indents : Text.IsIndent unit.toList) {requests : List Request}
    (oneLine : ∀ request ∈ requests, ∀ text ∈ request.texts, IsOneLine text) :
    (run ⟨unit, [], []⟩ requests).text.toList.splitOn '\n' =
      (entries ⟨unit, [], []⟩ (marks requests)).map (fun entry => (entry.written unit).toList) ++
        [[]] := by
  have steps : ∀ mark ∈ marks requests, IsOneLine mark.content := by
    intro mark listed
    obtain ⟨request, requested, made⟩ := List.mem_flatMap.mp listed
    exact Request.isOneLine_marks (oneLine request requested) mark made
  have lines : (run ⟨unit, [], []⟩ requests).lines =
      (entries ⟨unit, [], []⟩ (marks requests)).map (Entry.written unit) := by
    rw [run_eq, putAll_lines]
    rfl
  rw [toList_text, lines, splitOn_feeds, List.map_map]
  · rfl
  · refine List.forall_mem_map.mpr fun entry listed => Entry.isOneLine_written indents ?_
    exact isOneLine_entries steps _ entry listed

end SourceWriter

end VariantMerge
