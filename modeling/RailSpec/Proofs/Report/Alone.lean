import RailSpec.Proofs.Disk.Null
import RailSpec.Proofs.Number
import RailSpec.Proofs.ParseTree.Words
import RailSpec.Proofs.Report.Files
import RailSpec.Proofs.TypeSpec.Render

/-!
Schema files beside each other. A run over files comes to an end just if it does over each file
alone, and then what it holds of a file is what it holds of that file alone. A text keeps it from
coming to an end only by an integer with more digits than can be written.
-/

namespace RailSpec

namespace Generator

variable {generator : Generator} {disk : Disk} {root : Disk.Place} {path : Disk.Path}
  {paths : List Disk.Path}

/-- A path that is no obstacle: it can be looked up, and if a text is read from it, there are
documents for it. -/
structure Passes (generator : Generator) (disk : Disk) (path : Disk.Path) : Prop where
  clean : path.hasNull = false
  generates : ∀ text, disk.readText path = .ok text →
    ∃ generation, generator.generate text = .ok generation

theorem tryFile_returns_iff (clean : path.hasNull = false) :
    (∃ tried, generator.tryFile disk path = .ok tried) ↔
      ∀ text, disk.readText path = .ok text → ∃ generation, generator.generate text = .ok generation := by
  unfold tryFile generateFile
  cases read : disk.readText path with
  | error fault =>
    have other : fault ≠ .file .nullByte := by
      rintro rfl
      rw [Disk.readText_nullByte read] at clean
      cases clean
    refine iff_of_true ?_ nofun
    split
    · rename_i same
      exact absurd (Except.error.inj same) other
    · exact ⟨_, rfl⟩
    · cases ‹_›
    · cases ‹_›
  | ok text =>
    cases made : generator.generate text with
    | error fault =>
      refine iff_of_false ?_ fun all => ?_
      · rw [Except.map, made]
        rintro ⟨tried, ⟨⟩⟩
      · obtain ⟨generation, other⟩ := all text rfl
        cases made.symm.trans other
    | ok generation =>
      rw [Except.map, made]
      refine iff_of_true ⟨_, rfl⟩ fun other same => ?_
      cases same
      exact ⟨generation, made⟩

theorem readFile_returns_iff (root : Disk.Place) :
    (∃ read, generator.readFile disk root path = .ok read) ↔ generator.Passes disk path := by
  constructor
  · rintro ⟨⟨file, line⟩, done⟩
    have clean : path.hasNull = false := by
      obtain ⟨relative, named, _⟩ := bind_ok done
      obtain ⟨place, resolved, _⟩ := map_ok (mapError_ok named)
      unfold Disk.resolve at resolved
      split at resolved
      · cases resolved
      · exact eq_false_of_ne_true ‹_›
    exact ⟨clean, (tryFile_returns_iff clean).mp ⟨_, readFile_tryFile done⟩⟩
  · intro passes
    obtain ⟨⟨generation, line⟩, tried⟩ := (tryFile_returns_iff passes.clean).mpr passes.generates
    have resolved : disk.resolve path = .ok (path.resolve disk.here) := by
      rw [Disk.resolve, passes.clean]
      rfl
    exact ⟨_, by rw [readFile, relativePath, resolved, tried]; rfl⟩

/-- One file is added as it is read. -/
theorem addFiles_cons {report : Report} {file : SchemaFile} {line : Log.Line}
    (here : generator.readFile disk root path = .ok (file, line)) :
    generator.addFiles disk root report (path :: paths) =
      (generator.addFiles disk root
        ((report.addFile file).addMetric (parseMetric file.relative file.generation)) paths).map
          fun result => (result.1, line :: result.2) := by
  rw [addFiles, here]
  change (generator.addFiles disk root _ paths >>= fun result => .ok (result.1, line :: result.2)) = _
  cases generator.addFiles disk root _ paths <;> rfl

theorem addFiles_ended {report : Report} {escape : Escape}
    (ended : generator.readFile disk root path = .error escape) :
    generator.addFiles disk root report (path :: paths) = .error escape := by
  rw [addFiles, ended]
  rfl

theorem addFiles_returns_iff (report : Report) :
    (∃ result, generator.addFiles disk root report paths = .ok result) ↔
      ∀ path ∈ paths, generator.Passes disk path := by
  induction paths generalizing report with
  | nil => exact iff_of_true ⟨_, rfl⟩ (List.forall_mem_nil _)
  | cons path rest ih =>
    rw [List.forall_mem_cons, ← readFile_returns_iff root]
    constructor
    · rintro ⟨result, done⟩
      obtain ⟨read, here, more⟩ := bind_ok done
      obtain ⟨later, there, _⟩ := bind_ok more
      exact ⟨⟨read, here⟩, (ih _).mp ⟨later, there⟩⟩
    · rintro ⟨⟨⟨file, line⟩, here⟩, later⟩
      obtain ⟨result, there⟩ := (ih ((report.addFile file).addMetric
        (parseMetric file.relative file.generation))).mpr later
      exact ⟨_, by rw [addFiles_cons here, there]; rfl⟩

theorem generateFiles_resolved {projectRoot : Disk.Path}
    (resolved : disk.resolve projectRoot = .ok root) :
    generator.generateFiles disk paths projectRoot =
      generator.addFiles disk root { projectRoot := (Disk.Path.ofPlace root).toString } paths := by
  rw [generateFiles, resolved]
  rfl

theorem generateFiles_returns_iff {projectRoot : Disk.Path} :
    (∃ result, generator.generateFiles disk paths projectRoot = .ok result) ↔
      projectRoot.hasNull = false ∧ ∀ path ∈ paths, generator.Passes disk path := by
  unfold generateFiles Disk.resolve
  cases projectRoot.hasNull with
  | true => exact iff_of_false (by rintro ⟨result, ⟨⟩⟩) fun both => by cases both.1
  | false => exact (addFiles_returns_iff _).trans (by simp)

/-- A generator that reads texts through a parser. -/
def throughParser (parse : String → ParseTree) (settings : Settings) : Generator :=
  ⟨Reader.ofParser parse, settings⟩

/-- There are documents for a text in whose tree every integer can be written. -/
theorem generate_returns {parse : String → ParseTree} (settings : Settings) {text : String}
    (writable : (ParseTree.toValue (ParseTree.Located.ofString text) (parse text)).IsWritable) :
    ∃ generation, (throughParser parse settings).generate text = .ok generation := by
  obtain ⟨schema, extracted⟩ := ParseTree.extract_toValue (Source.ofString text) writable
    { errors := (parse text).problems.map ParseTree.Problem.message }
  have options := Schema.extract_options (Source.ofString text) writable extracted
  obtain ⟨generation, rendered⟩ := Generation.ofSchema_returns settings.frame options
  have read : (throughParser parse settings).reader text = .ok schema := by
    change (Reader.schemaOfTree text (parse text)).mapError Reader.Fault.declaration = _
    rw [Reader.schemaOfTree, extracted]
    rfl
  refine ⟨generation, ?_⟩
  rw [generate, read]
  change (Generation.ofSchema settings.frame schema).mapError _ = _
  rw [rendered]
  rfl

/-- What a report over one path alone holds. -/
theorem generateFiles_alone {projectRoot : Disk.Path} {file : SchemaFile} {line : Log.Line}
    (resolved : disk.resolve projectRoot = .ok root)
    (here : generator.readFile disk root path = .ok (file, line)) :
    ∃ alone, generator.generateFiles disk [path] projectRoot = .ok (alone, [line]) ∧
      alone.files = [file] := by
  let start : Report := { projectRoot := (Disk.Path.ofPlace root).toString }
  refine ⟨(start.addFile file).addMetric (parseMetric file.relative file.generation), ?_, rfl⟩
  rw [generateFiles_resolved resolved, addFiles_cons here]
  rfl

/-- No file of a run has a say in what comes of another: the run ends just if no path has a null
character and every text that is read gives documents, as every text does in whose tree each integer
can be written; each file is then the one that a run over its path alone gives, in the order of the
paths, and the warnings and errors are those of the files, marked with them. -/
theorem generateFiles_eachAlone (parse : String → ParseTree) (settings : Settings) (disk : Disk)
    (paths : List Disk.Path) (projectRoot : Disk.Path) :
    ((∃ result, (throughParser parse settings).generateFiles disk paths projectRoot = .ok result) ↔
      projectRoot.hasNull = false ∧
        ∀ path ∈ paths, (throughParser parse settings).Passes disk path) ∧
    (∀ path : Disk.Path, path.hasNull = false → (∀ text, disk.readText path = .ok text →
      (ParseTree.toValue (ParseTree.Located.ofString text) (parse text)).IsWritable) →
        (throughParser parse settings).Passes disk path) ∧
    ∀ report lines,
      (throughParser parse settings).generateFiles disk paths projectRoot = .ok (report, lines) →
        List.Forall₂ (fun path file => ∃ alone line,
          (throughParser parse settings).generateFiles disk [path] projectRoot =
            .ok (alone, [line]) ∧ alone.files = [file]) paths report.files ∧
        report.warnings = report.files.flatMap (fun file =>
          file.generation.diagnostics.warnings.map (Report.marked file)) ∧
        report.errors = report.files.flatMap fun file =>
          file.generation.diagnostics.errors.map (Report.marked file) := by
  refine ⟨generateFiles_returns_iff, fun path clean writable => ⟨clean, fun text read =>
    generate_returns settings (writable text read)⟩, fun report lines done => ?_⟩
  obtain ⟨root, resolved, more⟩ := bind_ok done
  obtain ⟨files, reads, held, warnings, errors, _⟩ := addFiles_reads more
  rw [List.nil_append] at held warnings errors
  subst held
  refine ⟨reads.imp fun path file read => ?_, warnings, errors⟩
  obtain ⟨line, here⟩ := read
  obtain ⟨alone, single, same⟩ := generateFiles_alone (mapError_ok resolved) here
  exact ⟨alone, line, single, same⟩

/-! A schema file with a default of more digits than can be written, in front of an empty one. -/

/-- What is in the first file before the default of a column. -/
def postsHead : List Char :=
  ['c', 'r', 'e', 'a', 't', 'e', '_', 't', 'a', 'b', 'l', 'e', ' ', '"', 'p', 'o', 's', 't', 's', '"',
    ' ', 'd', 'o', ' ', '|', 't', '|', '\n', ' ', ' ', 't', '.', 'b', 'i', 'g', 'i', 'n', 't', ' ',
    '"', 'v', 'i', 'e', 'w', 's', '"', ',', ' ', 'd', 'e', 'f', 'a', 'u', 'l', 't', ':', ' ']

/-- The default: a power of sixteen with more than four thousand decimal digits. -/
@[irreducible] def postsDefault : List Char :=
  '0' :: 'x' :: '1' :: List.replicate 3600 '0'

def postsTail : List Char :=
  ['\n', 'e', 'n', 'd', '\n']

def postsText : String :=
  String.ofList (postsHead ++ postsDefault ++ postsTail)

def defaultLabel : ParseTree.Label :=
  { kind := "integer", start := 57, stop := 3660, field := some "value" }

/-- The tree of the file, as a parser builds it. -/
def postsTree : ParseTree :=
  .node { kind := "program", start := 0, stop := 3665 } [
    .node { kind := "call", start := 0, stop := 3664 } [
      .node { kind := "identifier", start := 0, stop := 12, field := some "method" } [],
      .node { kind := "argument_list", start := 13, stop := 20, field := some "arguments" } [
        .node { kind := "string", start := 13, stop := 20 } [
          .node { kind := "string_content", start := 14, stop := 19 } []]],
      .node { kind := "do_block", start := 21, stop := 3664, field := some "block" } [
        .node { kind := "body_statement", start := 30, stop := 3660, field := some "body" } [
          .node { kind := "call", start := 30, stop := 3660 } [
            .node { kind := "identifier", start := 30, stop := 31, field := some "receiver" } [],
            .node { kind := "identifier", start := 32, stop := 38, field := some "method" } [],
            .node { kind := "argument_list", start := 39, stop := 3660, field := some "arguments" } [
              .node { kind := "string", start := 39, stop := 46 } [
                .node { kind := "string_content", start := 40, stop := 45 } []],
              .node { kind := "pair", start := 48, stop := 3660 } [
                .node { kind := "hash_key_symbol", start := 48, stop := 55, field := some "key" } [],
                .node defaultLabel []]]]]]]]

/-- A node with a place in the text. -/
def placed (kind : String) (start stop : Int) (fields : Fields) : Value :=
  .deferred (.mapping (("type", .text kind) ::
    ("location", .mapping [("startOffset", .int start), ("endOffset", .int stop)]) :: fields))

/-- The tree as nodes, around the node of the default. -/
def postsValue (held : Value) : Value :=
  placed "program" 0 3665 [("body", .list [
    placed "call" 0 3664 [
      ("method", placed "identifier" 0 12 []),
      ("arguments", placed "argument_list" 13 20 [("arguments", .list [
        placed "string" 13 20 [("parts", .list [placed "string_content" 14 19 []])]])]),
      ("block", placed "do_block" 21 3664 [("body", placed "body_statement" 30 3660 [("body", .list [
        placed "call" 30 3660 [
          ("receiver", placed "identifier" 30 31 []),
          ("method", placed "identifier" 32 38 []),
          ("arguments", placed "argument_list" 39 3660 [("arguments", .list [
            placed "string" 39 46 [("parts", .list [placed "string_content" 40 45 []])],
            placed "pair" 48 3660 [
              ("key", placed "hash_key_symbol" 48 55 []),
              ("value", held)]])])]])])])]])]

def postsSource : Source :=
  ⟨(postsHead ++ postsDefault ++ postsTail).toArray⟩

theorem postsTree_value (source : Source) {number : Int}
    (read : Number.readInteger (String.ofList (source.slice 57 3660)) = some number) :
    ParseTree.toValue ⟨source, .identity⟩ postsTree =
      postsValue (placed "integer" 57 3660 [("value", .int number)]) := by
  have value : ParseTree.ownValue ⟨source, .identity⟩ defaultLabel [] = some (.int number) := by
    change (Number.readInteger (String.ofList (source.slice 57 3660))).map Value.int = _
    rw [read]
    rfl
  have own : ParseTree.fieldsOf ⟨source, .identity⟩ defaultLabel [] =
      [("type", .text "integer"), ("location", .mapping [("startOffset", .int 57),
        ("endOffset", .int 3660)]), ("value", .int number)] := by
    rw [ParseTree.fieldsOf, List.map_nil, value]
    rfl
  rw [postsTree]
  simp only [ParseTree.toValue, ParseTree.toValues, own]
  rfl

theorem posts_located : ParseTree.Located.ofString postsText = ⟨postsSource, .identity⟩ := by
  have ascii : (postsHead ++ postsDefault ++ postsTail).all (fun c => c.toNat < 128) = true := by
    decide +kernel
  rw [ParseTree.Located.ofString, Source.ofString, ParseTree.OffsetMap.ofString, postsText,
    String.toList_ofList, if_pos ascii]
  rfl

theorem posts_default : postsSource.slice 57 3660 = postsDefault := by
  have shape : postsHead ++ postsDefault ++ postsTail = postsHead ++ (postsDefault ++ postsTail) :=
    List.append_assoc ..
  have long : 3660 - 57 = postsDefault.length := by
    rw [postsDefault, List.length_cons, List.length_cons, List.length_cons, List.length_replicate]
  have short : 57 = postsHead.length := rfl
  rw [Source.slice, postsSource, Array.toList_extract, List.extract, shape, long, short,
    List.drop_left, List.take_left]

/-- What a parser makes of the two files. -/
def parsePosts (text : String) : ParseTree :=
  if text = "" then .node { kind := "program", start := 0, stop := 0 } [] else postsTree

def postsGenerator : Generator :=
  throughParser parsePosts {}

theorem posts_read (number : Int)
    (known : Number.readInteger (String.ofList postsDefault) = some number) :
    postsGenerator.reader postsText = (Schema.extract postsSource
      (postsValue (placed "integer" 57 3660 [("value", .int number)])) {}).mapError .declaration := by
  have filled : postsText ≠ "" := by
    intro empty
    have characters := congrArg String.toList empty
    rw [postsText, String.toList_ofList] at characters
    cases characters
  have tree : parsePosts postsText = postsTree := if_neg filled
  have source : Source.ofString postsText = postsSource :=
    congrArg ParseTree.Located.source posts_located
  rw [← posts_default] at known
  change (Reader.schemaOfTree postsText (parsePosts postsText)).mapError Reader.Fault.declaration = _
  rw [tree, Reader.schemaOfTree, posts_located, source, postsTree_value postsSource known]
  rfl

theorem posts_generate :
    postsGenerator.generate postsText = .error (.declaration (.digits .written)) := by
  have known := Number.readInteger_power 3600
  rw [← postsDefault] at known
  apply eq_of_fault?
  rw [generate, posts_read _ known]
  decide +kernel

def postsDisk : Disk :=
  { tree := ⟨[(["posts.rb"], .file (Text.Utf8.encode postsText)),
      (["users.rb"], .file (Text.Utf8.encode ""))]⟩ }

def postsPath : Disk.Path := ⟨"/", ["posts.rb"]⟩

def usersPath : Disk.Path := ⟨"/", ["users.rb"]⟩

theorem posts_readText : postsDisk.readText postsPath = .ok postsText := by
  refine Disk.readText_encoded rfl rfl fun c member => ?_
  have plain : (postsHead ++ postsDefault ++ postsTail).all (· ≠ '\r') = true := by decide +kernel
  rw [postsText, String.toList_ofList] at member
  exact of_decide_eq_true (List.all_eq_true.mp plain c member)

theorem users_writable :
    (ParseTree.toValue (ParseTree.Located.ofString "") (parsePosts "")).IsWritable := by
  have zero : (Value.int 0).IsWritable := Value.isWritable_int (by decide +kernel)
  have place : (Value.mapping [("startOffset", .int 0), ("endOffset", .int 0)]).IsWritable :=
    Value.isWritable_mapping (by simp [zero])
  have node : (Value.mapping [("type", .text "program"), ("location",
      .mapping [("startOffset", .int 0), ("endOffset", .int 0)])]).IsWritable :=
    Value.isWritable_mapping (by simp [Value.isWritable_text, place])
  have tree : ParseTree.toValue (ParseTree.Located.ofString "") (parsePosts "") =
      placed "program" 0 0 [] := by
    rw [parsePosts, if_pos rfl, ParseTree.toValue, ParseTree.toValues]
    rfl
  rw [tree]
  refine .made ?_ fun part member => List.mem_singleton.mp member ▸ node
  intro number same
  cases same

theorem users_readText : postsDisk.readText usersPath = .ok "" :=
  Disk.readText_encoded rfl rfl nofun

theorem users_passes : postsGenerator.Passes postsDisk usersPath := by
  refine ⟨rfl, fun text read => ?_⟩
  cases users_readText.symm.trans read
  exact generate_returns {} users_writable

theorem posts_tried : postsGenerator.tryFile postsDisk postsPath =
    .error (.reader (.declaration (.digits .written))) := by
  rw [tryFile, generateFile, posts_readText, Except.map, posts_generate]

theorem posts_relative : relativePath postsDisk postsPath [] = .ok "posts.rb" := by decide +kernel

theorem posts_readFile : postsGenerator.readFile postsDisk [] postsPath =
    .error (.reader (.declaration (.digits .written))) := by
  rw [readFile, posts_relative, posts_tried]
  rfl

theorem generateFiles_eachAlone_users : postsGenerator.Passes postsDisk usersPath ∧
    ∃ report lines alone line, postsGenerator.generateFiles postsDisk [usersPath, usersPath]
        (.ofPlace []) = .ok (report, lines) ∧
      postsGenerator.generateFiles postsDisk [usersPath] (.ofPlace []) = .ok (alone, [line]) ∧
      report.files = alone.files ++ alone.files := by
  obtain ⟨returns, passes, holds⟩ := generateFiles_eachAlone parsePosts {} postsDisk
    [usersPath, usersPath] (.ofPlace [])
  have users : postsGenerator.Passes postsDisk usersPath := by
    refine passes usersPath rfl fun text read => ?_
    cases users_readText.symm.trans read
    exact users_writable
  have both : ∀ path ∈ [usersPath, usersPath], postsGenerator.Passes postsDisk path := by
    simp [users]
  obtain ⟨⟨report, lines⟩, done⟩ := returns.mpr ⟨rfl, both⟩
  obtain ⟨each, _, _⟩ := holds report lines done
  generalize held : report.files = files at each
  rcases each with _ | ⟨⟨alone, line, single, first⟩, _ | ⟨⟨other, told, again, second⟩, _ | _⟩⟩
  cases single.symm.trans again
  refine ⟨users, report, lines, alone, line, done, single, ?_⟩
  rw [held]
  nth_rewrite 1 [first]
  rw [second]
  rfl

/-- The second file alone gives a report, and behind the first one it does not. -/
theorem generateFiles_posts :
    (∃ result, postsGenerator.generateFiles postsDisk [usersPath] (.ofPlace []) = .ok result) ∧
      postsGenerator.generateFiles postsDisk [postsPath, usersPath] (.ofPlace []) =
        .error (.reader (.declaration (.digits .written))) := by
  constructor
  · exact generateFiles_returns_iff.mpr ⟨rfl, List.forall_mem_singleton.mpr users_passes⟩
  · have resolved : postsDisk.resolve (.ofPlace []) = .ok [] := rfl
    rw [generateFiles_resolved resolved, addFiles_ended posts_readFile]

end Generator

end RailSpec
