import Cinegraph.PrivateCorpus.Staging

/-!
A destination is published whole or not at all, whatever the order in which calls take their steps
and wherever they fail.
-/

namespace Cinegraph.PrivateCorpus

open Library

def memberFiles (files : List BundleFile) (contents : List ByteArray) : List (List String × ByteArray) :=
  List.zipWith (fun file content => (posixPath file.path, content)) files contents

theorem memberFiles_append {done : List BundleFile} {contents : List ByteArray} {item : BundleFile}
    {content : ByteArray} (same : done.length = contents.length) :
    memberFiles (done ++ [item]) (contents ++ [content]) =
      memberFiles done contents ++ [(posixPath item.path, content)] := by
  rw [memberFiles, List.zipWith_append same]
  rfl

/-- All directories stand above files of the manifest. -/
def Sheltered (files : List BundleFile) (tree : FileTree) : Prop :=
  ∀ d ∈ tree.directories, ∃ file ∈ files, d <+: parentOf (posixPath file.path)

theorem Sheltered.mkdirs {files : List BundleFile} {tree after : FileTree} {item : BundleFile}
    (sheltered : Sheltered files tree) (member : item ∈ files)
    (made : tree.mkdirs (parentOf (posixPath item.path)) = some after) : Sheltered files after := by
  intro d inside
  rcases (FileTree.mkdirs_eq_some made).2 d inside with old | above
  · exact sheltered d old
  · exact ⟨item, member, above⟩

/-- The phases of the `try` block and what stands in front of it. -/
def Phase.inBody : Phase → Bool
  | .rmtree | .close | .unlinkLock | .returned _ | .raised _ => false
  | _ => true

/-- How the end of a call is settled: it returns if it has published, and raises if it has not. -/
def Settles (call : Call) : Prop :=
  match call.phase with
  | .rmtree | .close | .unlinkLock => (call.raised = none ↔ call.published = true) ∧
      (call.published = true → call.manifest ≠ none)
  | .returned _ => call.published = true
  | .raised _ => call.published = false
  | _ => call.published = false ∧ call.raised = none

theorem Settles.of_body {call : Call} (settles : Settles call) (body : call.phase.inBody = true) :
    call.published = false ∧ call.raised = none := by
  unfold Settles at settles
  cases phase : call.phase <;> simp only [phase, Phase.inBody, Bool.false_eq_true] at settles body <;>
    exact settles

theorem settles_of_body {call : Call} (body : call.phase.inBody = true)
    (unpublished : call.published = false ∧ call.raised = none) : Settles call := by
  unfold Settles
  cases phase : call.phase <;> simp only [phase, Phase.inBody, Bool.false_eq_true] at body <;>
    exact unpublished

theorem Settles.leave (settles : Settles call) (phase : call.phase = .unlinkLock) : Settles call.leave := by
  simp only [Settles, phase] at settles
  obtain ⟨published, decoded⟩ := settles
  cases raised : call.raised with
  | some raised =>
      have unpublished : call.published = false := by simpa [raised] using published
      simp [Settles, Call.leave, raised, unpublished]
  | none =>
      have shown := published.mp raised
      obtain ⟨value, same⟩ := Option.ne_none_iff_exists'.mp (decoded shown)
      simp [Settles, Call.leave, raised, same, shown]

section Content

variable [Floats] [Composition] [Sha256Bytes]

/-- A directory with the canonical manifest and its files, and nothing else. -/
structure IsBundleDirectory (tree : FileTree) (purpose : String) (season : Int) (files : List BundleFile)
    (catalogue : String) (contents : List ByteArray) : Prop where
  valid : IsManifest purpose season files catalogue
  recorded : List.Forall₂ Matches files contents
  exactly : tree.files.entries =
    (manifestPath, canonicalJson (manifest purpose season files catalogue)) :: memberFiles files contents
  above : ∀ d ∈ tree.directories, ∃ file ∈ files, d <+: parentOf (posixPath file.path)

def IsBundle (node : Node) : Prop :=
  ∃ tree purpose season files catalogue contents, node = .directory tree ∧
    IsBundleDirectory tree purpose season files catalogue contents

/-! ### What a call has written -/

/-- The text is that of the verified manifest. -/
def Verified (manifest? : Option Json) (files : List BundleFile) (text : ByteArray) : Prop :=
  manifest? ≠ none ∧ ∃ purpose season catalogue, IsManifest purpose season files catalogue ∧
    text = canonicalJson (manifest purpose season files catalogue)

/-- The snapshot, the manifest and all but the last files are there. -/
def Extracted (manifest? : Option Json) (files rest : List BundleFile)
    (written : Dict (List String) ByteArray) : Prop :=
  ∃ snapshot text done contents, Verified manifest? files text ∧ files = done ++ rest ∧
    List.Forall₂ Matches done contents ∧
    written.entries = (snapshotPath, snapshot) :: (manifestPath, text) :: memberFiles done contents

/-- The file that is opened is the manifest, or the next of the files. -/
def Opens (manifest? : Option Json) (files : List BundleFile) (path : List String) (content : ByteArray)
    (rest : List BundleFile) (written : Dict (List String) ByteArray) : Prop :=
  (path = manifestPath ∧ rest = files ∧ Verified manifest? files content ∧
    ∃ snapshot, written.entries = [(snapshotPath, snapshot)]) ∨
  ∃ item, path = posixPath item.path ∧ Matches item content ∧
    Extracted manifest? files (item :: rest) written

/-- What the temporary directory of a call holds where the call stands. -/
def Work (manifest? : Option Json) (files : List BundleFile) (tree : FileTree) : Phase → Prop
  | .chmod | .openSnapshot => tree.files = .empty ∧ tree.directories = []
  | .copySnapshot | .verify =>
      (∃ snapshot, tree.files.entries = [(snapshotPath, snapshot)]) ∧ tree.directories = []
  | .openFile path content rest => Opens manifest? files path content rest tree.files ∧ Sheltered files tree
  | .fillFile path content rest =>
      (∃ before part, before.get? path = none ∧ tree.files = before.set path part ∧
        Opens manifest? files path content rest before) ∧ Sheltered files tree
  | .extract rest => Extracted manifest? files rest tree.files ∧ Sheltered files tree
  | .readMember item rest => Extracted manifest? files (item :: rest) tree.files ∧ Sheltered files tree
  | .unlinkSnapshot => Extracted manifest? files [] tree.files ∧ Sheltered files tree
  | .recheck | .rename => manifest? ≠ none ∧ ∃ purpose season catalogue contents,
      IsBundleDirectory tree purpose season files catalogue contents
  | .rmtree => True
  | _ => False

/-- A file that was opened and is filled is extracted. -/
theorem Opens.filled {manifest? : Option Json} {files rest : List BundleFile} {path : List String}
    {content : ByteArray} {written : Dict (List String) ByteArray}
    (opens : Opens manifest? files path content rest written) (absent : written.get? path = none) :
    Extracted manifest? files rest (written.set path content) := by
  have entries := Dict.entries_set_of_get?_none content absent
  rcases opens with ⟨rfl, rfl, verified, snapshot, only⟩ | ⟨item, rfl, recorded, extracted⟩
  · refine ⟨snapshot, content, [], [], verified, rfl, .nil, ?_⟩
    rw [entries, only]
    rfl
  · obtain ⟨snapshot, text, done, contents, verified, rfl, matched, before⟩ := extracted
    refine ⟨snapshot, text, done ++ [item], contents ++ [content], verified, ?_, ?_, ?_⟩
    · rw [List.append_assoc, List.singleton_append]
    · exact List.rel_append matched (.cons recorded .nil)
    · rw [entries, before, memberFiles_append matched.length_eq]
      rfl

/-- Without its snapshot the directory is the bundle. -/
theorem isBundleDirectory_of_extracted {manifest? : Option Json} {files : List BundleFile} {tree after : FileTree}
    (extracted : Extracted manifest? files [] tree.files) (sheltered : Sheltered files tree)
    (unlinked : tree.unlink snapshotPath = some after) : manifest? ≠ none ∧
      ∃ purpose season catalogue contents, IsBundleDirectory after purpose season files catalogue contents := by
  obtain ⟨_, rfl⟩ := FileTree.unlink_eq_some.mp unlinked
  obtain ⟨snapshot, text, done, contents, ⟨some_manifest, purpose, season, catalogue, valid, same⟩, whole, matched,
    entries⟩ := extracted
  rw [List.append_nil] at whole
  rw [← whole] at matched entries
  refine ⟨some_manifest, purpose, season, catalogue, contents, valid, matched, ?_, sheltered⟩
  rw [Dict.entries_erase_of_cons entries, same]

/-! ### What a call keeps -/

/-- What holds of one call and the directory. -/
structure Sound (destination : String) (entries : Entries) (call : Call) : Prop where
  temp : ∀ name, call.temp = some name → name ≠ destination ∧ ∃ tree,
    entries.get? name = some (.directory tree) ∧ Work call.manifest call.files tree call.phase
  settles : Settles call

variable {destination : String} {entries after : Entries} {call next : Call}

theorem Sound.unwind (sound : Sound destination entries call) (body : call.phase.inBody = true)
    (raised : Raised) : Sound destination entries (call.unwind raised) := by
  obtain ⟨unpublished, _⟩ := sound.settles.of_body body
  constructor
  · intro name named
    obtain ⟨other, tree, present, _⟩ := sound.temp name named
    exact ⟨other, tree, present, trivial⟩
  · simp [Settles, Call.unwind, unpublished]

/-- A step of the body that leaves the directory alone. -/
theorem Sound.move {phase : Phase} (sound : Sound destination entries call) (body : call.phase.inBody = true)
    (nextBody : phase.inBody = true)
    (works : ∀ tree, Work call.manifest call.files tree call.phase → Work call.manifest call.files tree phase) :
    Sound destination entries { call with phase } where
  temp name named := by
    obtain ⟨other, tree, present, work⟩ := sound.temp name named
    exact ⟨other, tree, present, works tree work⟩
  settles := settles_of_body nextBody (sound.settles.of_body body)

/-- A step of the body that changes its temporary directory. -/
theorem Sound.inTemp {phase : Phase} {change : FileTree → Option FileTree}
    (sound : Sound destination entries call) (body : call.phase.inBody = true)
    (nextBody : phase.inBody = true)
    (works : ∀ tree changed, change tree = some changed → Work call.manifest call.files tree call.phase →
      Work call.manifest call.files changed phase)
    (taken : inTemp entries call change phase = (after, next)) : Sound destination after next := by
  unfold PrivateCorpus.inTemp at taken
  split at taken
  · cases taken
    exact sound.unwind body _
  · rename_i temp named
    split at taken
    · rename_i tree present
      split at taken
      · rename_i changed made
        cases taken
        obtain ⟨other, tree', present', work⟩ := sound.temp temp named
        cases present.symm.trans present'
        refine ⟨fun name same => ?_, settles_of_body nextBody (sound.settles.of_body body)⟩
        cases named.symm.trans same
        exact ⟨other, changed, Dict.get?_set_self .., works tree changed made work⟩
      · cases taken
        exact sound.unwind body _
    · cases taken
      exact sound.unwind body _

end Content

/-! ### What a step leaves alone -/

/-- A step of a call changes no directory but its own, for which it takes a new name. -/
structure Frame (entries : Entries) (call : Call) (after : Entries) (next : Call) : Prop where
  others : ∀ name tree, entries.get? name = some (.directory tree) → call.temp ≠ some name →
    after.get? name = some (.directory tree)
  temps : ∀ name, next.temp = some name → call.temp = some name ∨ entries.get? name = none

section Frames

variable {destination : String} {entries after : Entries} {call next : Call}

theorem Frame.same (temp : next.temp = call.temp ∨ next.temp = none) :
    Frame entries call entries next where
  others _ _ present _ := present
  temps name named := by
    rcases temp with same | none
    · exact .inl (by rwa [same] at named)
    · rw [none] at named
      cases named

theorem Frame.inTemp {phase : Phase} {change : FileTree → Option FileTree}
    (taken : inTemp entries call change phase = (after, next)) :
    Frame entries call after next := by
  unfold PrivateCorpus.inTemp at taken
  split at taken
  · cases taken
    exact .same (.inl rfl)
  · rename_i temp named
    split at taken
    · split at taken <;> cases taken
      · refine ⟨fun name tree present other => ?_, fun name same => .inl same⟩
        rw [Dict.get?_set_of_ne, present]
        rintro rfl
        exact other named
      · exact .same (.inl rfl)
    · cases taken
      exact .same (.inl rfl)

theorem get?_unlinkFile {name lock : String} {tree : FileTree}
    (present : entries.get? name = some (.directory tree)) :
    (unlinkFile entries lock).get? name = some (.directory tree) := by
  unfold unlinkFile
  split
  · rename_i content found
    rw [Dict.get?_erase, if_neg, present]
    rintro rfl
    rw [found] at present
    cases present
  · exact present

variable [Floats] [Composition] [Sha256Bytes] [ZipLibrary] {stack : Nat}

theorem proceed_frame (taken : proceed stack destination entries call = some (after, next)) :
    Frame entries call after next := by
  unfold proceed at taken
  split at taken
  · split at taken <;> cases taken <;> exact .same (.inl rfl)
  · cases taken
    exact .same (.inl rfl)
  · split at taken <;> cases taken
    · exact .same (.inl rfl)
    · rename_i free
      refine ⟨fun name tree present _ => ?_, fun name named => .inl named⟩
      rw [Dict.get?_set_of_ne, present]
      rintro rfl
      simp [present] at free
  · cases taken
    exact .same (.inl rfl)
  · exact .inTemp (Option.some.inj taken)
  · cases taken
    exact .same (.inl rfl)
  · split at taken <;> cases taken <;> exact .same (.inl rfl)
  · exact .inTemp (Option.some.inj taken)
  · exact .inTemp (Option.some.inj taken)
  · exact .inTemp (Option.some.inj taken)
  · cases taken
    exact .same (.inl rfl)
  · split at taken <;> cases taken <;> exact .same (.inl rfl)
  · exact .inTemp (Option.some.inj taken)
  · split at taken <;> cases taken <;> exact .same (.inl rfl)
  · split at taken
    · cases taken
      exact .same (.inl rfl)
    · rename_i free
      split at taken
      · cases taken
        exact .same (.inl rfl)
      · rename_i temp named
        split at taken <;> cases taken
        · exact .same (.inl rfl)
        · refine ⟨fun name tree present other => ?_, fun _ none => by cases none⟩
          have elsewhere : name ≠ destination := by
            rintro rfl
            simp [present] at free
          rw [Dict.get?_set_of_ne _ _ elsewhere, Dict.get?_erase, if_neg, present]
          rintro rfl
          exact other named
  · split at taken <;> cases taken
    · exact .same (.inl rfl)
    · rename_i temp named
      refine ⟨fun name tree present other => ?_, fun _ none => by cases none⟩
      rw [Dict.get?_erase, if_neg, present]
      rintro rfl
      exact other named
  · cases taken
    exact .same (.inl rfl)
  · split at taken <;> cases taken
    · exact ⟨fun name tree present _ => get?_unlinkFile present, fun name named => .inl named⟩
    · exact .same (.inl rfl)
  all_goals cases taken

theorem perform_frame {event : Event} (taken : perform stack destination entries call event = some (after, next)) :
    Frame entries call after next := by
  cases event with
  | proceed => exact proceed_frame taken
  | fail raised =>
      obtain ⟨failed, fails, same⟩ := Option.map_eq_some_iff.mp taken
      cases same
      unfold Call.fails at fails
      split at fails
      · cases fails
        exact .same (.inl rfl)
      · cases fails
        exact .same (.inl rfl)
      · split at fails <;> cases fails
        exact .same (.inl rfl)
      all_goals cases fails
      exact .same (.inl rfl)
  | draw name =>
      simp only [perform] at taken
      split at taken
      · split at taken <;> cases taken
        rename_i free
        simp only [not_or, Option.not_isSome_iff_eq_none, Bool.not_eq_false] at free
        refine ⟨fun other tree present _ => ?_, fun other named => ?_⟩
        · rw [Dict.get?_set_of_ne, present]
          rintro rfl
          rw [free.2] at present
          cases present
        · cases named
          exact .inr free.2
      · cases taken
  | copy chunk =>
      simp only [perform] at taken
      split at taken
      · split at taken
        · cases taken
          exact .same (.inl rfl)
        · exact .inTemp (Option.some.inj taken)
      · cases taken
  | fill count =>
      simp only [perform] at taken
      split at taken
      · exact .inTemp (Option.some.inj taken)
      · cases taken
  | remove path =>
      simp only [perform] at taken
      split at taken
      · rename_i temp _ named
        split at taken
        · obtain ⟨changed, _, same⟩ := Option.map_eq_some_iff.mp taken
          cases same
          refine ⟨fun name tree present other => ?_, fun name named => .inl named⟩
          rw [Dict.get?_set_of_ne, present]
          rintro rfl
          exact other named
        · cases taken
      · cases taken
  | ignore =>
      simp only [perform] at taken
      split at taken <;> cases taken
      · exact .same (.inr rfl)
      · exact .same (.inl rfl)

end Frames

/-! ### What a step does to its own call -/

theorem lockName_ne (destination : String) : lockName destination ≠ destination := by
  intro same
  have lengths := congrArg String.length same
  simp only [lockName, String.length_append] at lengths
  have positive : 0 < ".".length := by decide
  omega

/-- A step that neither draws the name of the destination itself, nor fails to close the lock of a call
that has published. -/
def Careful (destination : String) (call : Call) : Event → Prop
  | .draw name => name ≠ destination
  | .fail _ => match call.phase with
    | .close => call.published = false
    | _ => True
  | _ => True

section Effects

variable [Floats] [Composition] [Sha256Bytes] [ZipLibrary] {stack : Nat} {destination : String}
  {entries after : Entries} {call next : Call}

/-- The call stays sound, and where the destination changes it is published whole. -/
structure Effect (destination : String) (entries : Entries) (call : Call) (after : Entries) (next : Call) :
    Prop where
  sound : Sound destination after next
  shows : (after.get? destination = entries.get? destination ∧ next.published = call.published) ∨
    (entries.get? destination = none ∧ next.published = true ∧
      ∃ node, after.get? destination = some node ∧ IsBundle node)

omit [ZipLibrary] in
theorem Effect.unwind (sound : Sound destination entries call) (body : call.phase.inBody = true)
    (raised : Raised) : Effect destination entries call entries (call.unwind raised) :=
  ⟨sound.unwind body raised, .inl ⟨rfl, rfl⟩⟩

omit [ZipLibrary] in
theorem Effect.move {phase : Phase} (sound : Sound destination entries call)
    (body : call.phase.inBody = true) (nextBody : phase.inBody = true)
    (works : ∀ tree, Work call.manifest call.files tree call.phase → Work call.manifest call.files tree phase) :
    Effect destination entries call entries { call with phase } :=
  ⟨sound.move body nextBody works, .inl ⟨rfl, rfl⟩⟩

omit [ZipLibrary] in
theorem Effect.inTemp {phase : Phase} {change : FileTree → Option FileTree}
    (sound : Sound destination entries call) (body : call.phase.inBody = true)
    (nextBody : phase.inBody = true)
    (works : ∀ tree changed, change tree = some changed → Work call.manifest call.files tree call.phase →
      Work call.manifest call.files changed phase)
    (taken : inTemp entries call change phase = (after, next)) :
    Effect destination entries call after next := by
  refine ⟨sound.inTemp body nextBody works taken, .inl ?_⟩
  unfold PrivateCorpus.inTemp at taken
  split at taken
  · cases taken
    exact ⟨rfl, rfl⟩
  · rename_i temp named
    split at taken
    · split at taken <;> cases taken
      · exact ⟨Dict.get?_set_of_ne _ _ (sound.temp temp named).1.symm, rfl⟩
      · exact ⟨rfl, rfl⟩
    · cases taken
      exact ⟨rfl, rfl⟩

theorem Effect.verify (deep : 3 ≤ stack) (sound : Sound destination entries call) (phase : call.phase = .verify)
    (taken : proceed stack destination entries call = some (after, next)) :
    Effect destination entries call after next := by
  have body : call.phase.inBody = true := by rw [phase]; rfl
  simp only [proceed, phase] at taken
  split at taken <;> cases taken
  · exact .unwind sound body _
  · rename_i snapshot value files read
    simp only [verifySnapshot, bind_eq_ok] at read
    obtain ⟨_, _, _, verified, same⟩ := read
    cases same
    obtain ⟨purpose, season, catalogue, valid, canonical⟩ := verifyBundle_manifest deep verified
    refine ⟨⟨fun name named => ?_, settles_of_body rfl (sound.settles.of_body body)⟩, .inl ⟨rfl, rfl⟩⟩
    obtain ⟨other, tree, present, work⟩ := sound.temp name named
    rw [phase] at work
    obtain ⟨snapshot, bare⟩ := work
    refine ⟨other, tree, present, .inl ⟨rfl, rfl, ⟨by simp, purpose, season, catalogue, valid, ?_⟩, snapshot⟩, ?_⟩
    · rw [canonical]
      exact canonicalJson_congr (Json.sortKeys_sortKeys _)
    · intro d member
      rw [bare] at member
      cases member

theorem Effect.rename (sound : Sound destination entries call) (phase : call.phase = .rename)
    (taken : proceed stack destination entries call = some (after, next)) :
    Effect destination entries call after next := by
  have body : call.phase.inBody = true := by rw [phase]; rfl
  obtain ⟨_, unraised⟩ := sound.settles.of_body body
  simp only [proceed, phase] at taken
  split at taken
  · cases taken
    exact .unwind sound body _
  · rename_i free
    split at taken
    · cases taken
      exact .unwind sound body _
    · rename_i temp named
      split at taken <;> cases taken
      · exact .unwind sound body _
      · rename_i node present
        obtain ⟨_, tree, found, work⟩ := sound.temp temp named
        cases present.symm.trans found
        rw [phase] at work
        obtain ⟨decoded, purpose, season, catalogue, contents, whole⟩ := work
        refine ⟨⟨fun _ none => (by cases none), ?_⟩, .inr ⟨?_, rfl, _, Dict.get?_set_self .., ?_⟩⟩
        · simp [Settles, unraised, decoded]
        · simpa using free
        · exact ⟨tree, purpose, season, _, catalogue, contents, rfl, whole⟩

theorem Effect.rmtree (sound : Sound destination entries call) (phase : call.phase = .rmtree)
    (taken : proceed stack destination entries call = some (after, next)) :
    Effect destination entries call after next := by
  have settles := sound.settles
  simp only [Settles, phase] at settles
  simp only [proceed, phase] at taken
  split at taken <;> cases taken
  · rename_i unnamed
    refine ⟨⟨fun name named => ?_, settles⟩, .inl ⟨rfl, rfl⟩⟩
    cases unnamed.symm.trans named
  · rename_i temp named
    refine ⟨⟨fun _ none => (by cases none), settles⟩, .inl ⟨?_, rfl⟩⟩
    rw [Dict.get?_erase, if_neg (sound.temp temp named).1.symm]

omit [ZipLibrary] in
/-- At the end of its `finally` block a call has no temporary directory. -/
theorem Sound.unnamed (sound : Sound destination entries call) (phase : call.phase = .close ∨ call.phase = .unlinkLock)
    {name : String} : call.temp ≠ some name := by
  intro named
  obtain ⟨_, tree, _, work⟩ := sound.temp name named
  rcases phase with phase | phase <;> rw [phase] at work <;> exact work

omit [ZipLibrary] in
theorem Effect.leave (sound : Sound destination entries call) (phase : call.phase = .unlinkLock)
    (same : after.get? destination = entries.get? destination) :
    Effect destination entries call after call.leave :=
  ⟨⟨fun _ named => absurd named (sound.unnamed (.inr phase)), sound.settles.leave phase⟩, .inl ⟨same, rfl⟩⟩

omit [Floats] [Composition] [Sha256Bytes] [ZipLibrary] in
theorem get?_unlinkLock (entries : Entries) (destination : String) :
    (unlinkFile entries (lockName destination)).get? destination = entries.get? destination := by
  unfold unlinkFile
  split
  · rw [Dict.get?_erase, if_neg (lockName_ne destination).symm]
  · rfl

theorem Effect.proceed (deep : 3 ≤ stack) (sound : Sound destination entries call)
    (taken : proceed stack destination entries call = some (after, next)) :
    Effect destination entries call after next := by
  cases phase : call.phase
  case verify => exact .verify deep sound phase taken
  case rename => exact .rename sound phase taken
  case rmtree => exact .rmtree sound phase taken
  case close =>
    simp only [PrivateCorpus.proceed, phase] at taken
    cases taken
    have settles := sound.settles
    simp only [Settles, phase] at settles
    exact ⟨⟨fun _ named => absurd named (sound.unnamed (.inl phase)), settles⟩, .inl ⟨rfl, rfl⟩⟩
  case unlinkLock =>
    simp only [PrivateCorpus.proceed, phase] at taken
    split at taken <;> cases taken
    · exact .leave sound phase (get?_unlinkLock entries destination)
    · exact .leave sound phase rfl
  case mkdtemp | returned | raised => simp only [PrivateCorpus.proceed, phase] at taken; cases taken
  all_goals
    have body : call.phase.inBody = true := by rw [phase]; rfl
    simp only [PrivateCorpus.proceed, phase] at taken
  case check =>
    split at taken <;> cases taken
    · refine ⟨⟨fun name named => ?_, (sound.settles.of_body body).1⟩, .inl ⟨rfl, rfl⟩⟩
      obtain ⟨_, _, _, work⟩ := sound.temp name named
      rw [phase] at work
      cases work
    · exact .move sound body rfl fun tree work => by rwa [phase] at work
  case resolve =>
    cases taken
    exact .move sound body rfl fun tree work => by rwa [phase] at work
  case lock =>
    split at taken <;> cases taken
    · exact .unwind sound body _
    · refine ⟨⟨fun name named => ?_, settles_of_body rfl (sound.settles.of_body body)⟩, .inl ⟨?_, rfl⟩⟩
      · obtain ⟨_, _, _, work⟩ := sound.temp name named
        rw [phase] at work
        cases work
      · exact Dict.get?_set_of_ne _ _ (lockName_ne destination).symm
  case chmod =>
    cases taken
    exact .move sound body rfl fun tree work => by rwa [phase] at work
  case openSnapshot =>
    refine .inTemp sound body rfl (fun tree changed made work => ?_) (Option.some.inj taken)
    rw [phase] at work
    obtain ⟨_, rfl⟩ := FileTree.create_eq_some made
    refine ⟨⟨.empty, ?_⟩, work.2⟩
    simp only [work.1]
    rfl
  case copySnapshot =>
    cases taken
    exact .move sound body rfl fun tree work => by rwa [phase] at work
  case openFile path content rest =>
    refine .inTemp sound body rfl (fun tree changed made work => ?_) (Option.some.inj taken)
    rw [phase] at work
    obtain ⟨absent, rfl⟩ := FileTree.create_eq_some made
    exact ⟨⟨tree.files, .empty, absent, rfl, work.1⟩, work.2⟩
  case fillFile path content rest =>
    refine .inTemp sound body rfl (fun tree changed made work => ?_) (Option.some.inj taken)
    rw [phase] at work
    obtain ⟨_, rfl⟩ := FileTree.write_eq_some.mp made
    obtain ⟨⟨before, part, absent, files, opens⟩, sheltered⟩ := work
    refine ⟨?_, sheltered⟩
    rw [files, Dict.set_set]
    exact opens.filled absent
  case extract rest =>
    cases rest with
    | nil =>
        cases taken
        exact .move sound body rfl fun tree work => by rwa [phase] at work
    | cons item rest =>
        refine .inTemp sound body rfl (fun tree changed made work => ?_) (Option.some.inj taken)
        rw [phase] at work
        obtain ⟨extracted, sheltered⟩ := work
        have member : item ∈ call.files := by
          obtain ⟨_, _, done, _, _, whole, _⟩ := extracted
          rw [whole]
          exact List.mem_append_right _ List.mem_cons_self
        refine ⟨?_, sheltered.mkdirs member made⟩
        rw [(FileTree.mkdirs_eq_some made).1]
        exact extracted
  case readMember item rest =>
    split at taken <;> cases taken
    · exact .unwind sound body _
    · rename_i content read
      simp only [readMember, bind_eq_ok] at read
      obtain ⟨_, _, _, _, _, _, verified⟩ := read
      refine .move sound body rfl fun tree work => ?_
      rw [phase] at work
      exact ⟨.inr ⟨item, rfl, verifiedMemberBytes_matches verified, work.1⟩, work.2⟩
  case unlinkSnapshot =>
    refine .inTemp sound body rfl (fun tree changed made work => ?_) (Option.some.inj taken)
    rw [phase] at work
    exact isBundleDirectory_of_extracted work.1 work.2 made
  case recheck =>
    split at taken <;> cases taken
    · exact .unwind sound body _
    · exact .move sound body rfl fun tree work => by rwa [phase] at work

omit [ZipLibrary] in
theorem Effect.fail {raised : Raised} (careful : Careful destination call (.fail raised))
    (sound : Sound destination entries call) (fails : call.fails raised = some next) :
    Effect destination entries call entries next := by
  cases phase : call.phase
  case check | resolve =>
    simp only [Call.fails, phase] at fails
    cases fails
    have body : call.phase.inBody = true := by rw [phase]; rfl
    refine ⟨⟨fun name named => ?_, (sound.settles.of_body body).1⟩, .inl ⟨rfl, rfl⟩⟩
    obtain ⟨_, _, _, work⟩ := sound.temp name named
    rw [phase] at work
    cases work
  case close =>
    simp only [Call.fails, phase] at fails
    split at fails <;> cases fails
    refine ⟨⟨fun _ named => absurd named (sound.unnamed (.inl phase)), ?_⟩, .inl ⟨rfl, rfl⟩⟩
    simp only [Careful, phase] at careful
    exact careful
  case rmtree | unlinkLock | returned | raised =>
    simp only [Call.fails, phase] at fails
    cases fails
  all_goals
    have body : call.phase.inBody = true := by rw [phase]; rfl
    simp only [Call.fails, phase] at fails
    cases fails
    exact .unwind sound body raised

/-- What a careful step does to its own call and the destination. -/
theorem perform_effect (deep : 3 ≤ stack) {event : Event} (careful : Careful destination call event)
    (sound : Sound destination entries call)
    (taken : perform stack destination entries call event = some (after, next)) :
    Effect destination entries call after next := by
  cases event with
  | proceed => exact .proceed deep sound taken
  | fail raised =>
      obtain ⟨failed, fails, same⟩ := Option.map_eq_some_iff.mp taken
      cases same
      exact .fail careful sound fails
  | draw name =>
      simp only [perform] at taken
      split at taken
      · rename_i phase
        have body : call.phase.inBody = true := by rw [phase]; rfl
        split at taken <;> cases taken
        refine ⟨⟨fun other named => ?_, settles_of_body rfl (sound.settles.of_body body)⟩,
          .inl ⟨Dict.get?_set_of_ne _ _ (Ne.symm careful), rfl⟩⟩
        cases named
        exact ⟨careful, .empty, Dict.get?_set_self .., rfl, rfl⟩
      · cases taken
  | copy chunk =>
      simp only [perform] at taken
      split at taken
      · rename_i copied phase _
        have body : call.phase.inBody = true := by rw [phase]; rfl
        split at taken
        · cases taken
          exact .unwind sound body _
        · refine .inTemp sound body rfl (fun tree changed made work => ?_) (Option.some.inj taken)
          rw [phase] at work
          obtain ⟨_, rfl⟩ := FileTree.write_eq_some.mp made
          obtain ⟨⟨snapshot, only⟩, bare⟩ := work
          refine ⟨⟨copied ++ chunk, ?_⟩, bare⟩
          change assign tree.files.entries snapshotPath (copied ++ chunk) = _
          rw [only]
          rfl
      · cases taken
  | fill count =>
      simp only [perform] at taken
      split at taken
      · rename_i path content rest phase
        have body : call.phase.inBody = true := by rw [phase]; rfl
        refine .inTemp sound body rfl (fun tree changed made work => ?_) (Option.some.inj taken)
        rw [phase] at work
        obtain ⟨_, rfl⟩ := FileTree.write_eq_some.mp made
        obtain ⟨⟨before, part, absent, files, opens⟩, sheltered⟩ := work
        exact ⟨⟨before, content.extract 0 count, absent, by rw [files, Dict.set_set], opens⟩, sheltered⟩
      · cases taken
  | remove path =>
      simp only [perform] at taken
      split at taken
      · rename_i temp phase named
        split at taken
        · obtain ⟨changed, _, same⟩ := Option.map_eq_some_iff.mp taken
          cases same
          have other := (sound.temp temp named).1
          refine ⟨⟨fun name same => ?_, sound.settles⟩, .inl ⟨Dict.get?_set_of_ne _ _ other.symm, rfl⟩⟩
          cases named.symm.trans same
          rw [phase]
          exact ⟨other, changed, Dict.get?_set_self .., trivial⟩
        · cases taken
      · cases taken
  | ignore =>
      simp only [perform] at taken
      split at taken <;> cases taken
      · rename_i phase
        have settles := sound.settles
        simp only [Settles, phase] at settles
        exact ⟨⟨fun _ none => (by cases none), settles⟩, .inl ⟨rfl, rfl⟩⟩
      · rename_i phase
        exact .leave sound phase rfl

end Effects

/-! ### Runs -/

section Runs

variable [Floats] [Composition] [Sha256Bytes] [ZipLibrary] {stack : Nat} {destination : String}

/-- What holds in every state of a careful run. -/
structure Staged (destination : String) (s : StagingState) : Prop where
  sound : ∀ i, Sound destination s.entries (s.calls i)
  whole : ∀ node, s.entries.get? destination = some node → IsBundle node
  apart : ∀ i j name, (s.calls i).temp = some name → (s.calls j).temp = some name → i = j
  shown : ∀ i, (s.calls i).published = true → s.entries.get? destination ≠ none
  once : ∀ i j, (s.calls i).published = true → (s.calls j).published = true → i = j

theorem Staged.step {s t : StagingState} {action : Nat × Event} (deep : 3 ≤ stack) (staged : Staged destination s)
    (careful : Careful destination (s.calls action.1) action.2)
    (taken : stagingStep stack destination s action = some t) : Staged destination t := by
  obtain ⟨⟨after, next⟩, performed, rfl⟩ := Option.map_eq_some_iff.mp taken
  obtain ⟨i, event⟩ := action
  have effect := perform_effect deep careful (staged.sound i) performed
  have frame := perform_frame performed
  have present : ∀ j name, (s.calls j).temp = some name → s.entries.get? name ≠ none := by
    intro j name named
    obtain ⟨_, tree, found, _⟩ := (staged.sound j).temp name named
    rw [found]
    exact Option.some_ne_none _
  -- Another call may hold the name of the call that moved only if it is the same call.
  have apart : ∀ j name, j ≠ i → next.temp = some name → (s.calls j).temp ≠ some name := by
    intro j name other named held
    rcases frame.temps name named with old | new
    · exact other (staged.apart j i name held old)
    · exact present j name held new
  refine ⟨fun j => ?_, fun node shown => ?_, fun j k name => ?_, fun j => ?_, fun j k => ?_⟩
  · by_cases same : j = i
    · subst same
      simpa using effect.sound
    · simp only [Function.update_of_ne same]
      refine ⟨fun name named => ?_, (staged.sound j).settles⟩
      obtain ⟨other, tree, found, work⟩ := (staged.sound j).temp name named
      exact ⟨other, tree, frame.others name tree found fun held => same (staged.apart j i name named held), work⟩
  · rcases effect.shows with ⟨kept, _⟩ | ⟨_, _, other, found, whole⟩
    · exact staged.whole node (kept ▸ shown)
    · cases shown.symm.trans found
      exact whole
  · by_cases left : j = i <;> by_cases right : k = i <;> simp only [left, right, Function.update_self, ne_eq, not_false_eq_true, Function.update_of_ne]
    · exact fun _ _ => trivial
    · exact fun named held => absurd held (apart k name right named)
    · exact fun held named => absurd held (apart j name left named)
    · exact staged.apart j k name
  · rcases effect.shows with ⟨kept, same⟩ | ⟨_, _, node, found, _⟩
    · by_cases moved : j = i
      · subst moved
        simp only [Function.update_self, same, kept]
        exact staged.shown j
      · simp only [Function.update_of_ne moved, kept]
        exact staged.shown j
    · simp [found]
  · rcases effect.shows with ⟨_, same⟩ | ⟨free, _⟩
    · have unchanged : ∀ l, (Function.update s.calls i next l).published = (s.calls l).published := by
        intro l
        by_cases moved : l = i
        · subst moved
          rw [Function.update_self, same]
        · rw [Function.update_of_ne moved]
      simp only [unchanged]
      exact staged.once j k
    · have unpublished : ∀ l, (s.calls l).published ≠ true := fun l shown => staged.shown l shown free
      by_cases left : j = i <;> by_cases right : k = i <;> simp only [left, right, Function.update_self, ne_eq, not_false_eq_true, Function.update_of_ne]
      · exact fun _ _ => trivial
      · exact fun _ shown => absurd shown (unpublished k)
      · exact fun shown _ => absurd shown (unpublished j)
      · exact fun shown _ => absurd shown (unpublished j)

/-- A published destination stays, whatever the calls do from there on. -/
theorem kept_of_run {s t : StagingState} {node : Node} (staged : Staged destination s)
    (run : Run (stagingStep stack destination) (fun _ _ => True) s t)
    (shown : s.entries.get? destination = some node) : t.entries.get? destination = some node := by
  obtain ⟨tree, _, _, _, _, _, rfl, _⟩ := staged.whole node shown
  have kept : t.entries.get? destination = some (.directory tree) ∧ ∀ i, (t.calls i).temp ≠ some destination := by
    refine run.invariant (I := fun t => t.entries.get? destination = some (.directory tree) ∧
      ∀ i, (t.calls i).temp ≠ some destination) ⟨shown, fun i named => ((staged.sound i).temp _ named).1 rfl⟩ ?_
    rintro s t ⟨i, event⟩ ⟨present, unnamed⟩ _ taken
    obtain ⟨⟨after, next⟩, performed, rfl⟩ := Option.map_eq_some_iff.mp taken
    have frame := perform_frame performed
    refine ⟨frame.others _ _ present (unnamed i), fun j => ?_⟩
    by_cases same : j = i
    · subst same
      simp only [Function.update_self]
      intro named
      rcases frame.temps _ named with old | new
      · exact unnamed j old
      · rw [present] at new
        cases new
    · simp only [Function.update_of_ne same]
      exact unnamed j
  exact kept.1

/-- What is asked of the staging of one destination by any number of calls. -/
structure AllOrNothing (stack : Nat) (destination : String) (s : StagingState) : Prop where
  whole : ∀ node, s.entries.get? destination = some node → IsBundle node
  once : ∀ i j, (s.calls i).published = true → (s.calls j).published = true → i = j
  returned : ∀ i result, (s.calls i).phase = .returned result → (s.calls i).published = true
  raised : ∀ i raised, (s.calls i).phase = .raised raised → (s.calls i).published = false
  kept : ∀ node, s.entries.get? destination = some node → ∀ t,
    Run (stagingStep stack destination) (fun _ _ => True) s t → t.entries.get? destination = some node

/-- In a run whose steps are careful, staging is all or nothing in every state that is reached. -/
theorem all_or_nothing (deep : 3 ≤ stack) {entries : Entries} (free : entries.get? destination = none)
    {s : StagingState} (run : Run (stagingStep stack destination)
      (fun s action => Careful destination (s.calls action.1) action.2) (.start entries) s) :
    AllOrNothing stack destination s := by
  have start : Staged destination (.start entries) := by
    refine ⟨fun i => ⟨fun _ none => (by cases none), ⟨rfl, rfl⟩⟩, fun node shown => ?_, fun _ _ _ none => (by cases none),
      fun _ none => (by cases none), fun _ _ none => (by cases none)⟩
    rw [StagingState.start, free] at shown
    cases shown
  have staged := run.invariant start fun _ _ _ staged careful taken => staged.step deep careful taken
  refine ⟨staged.whole, staged.once, fun i result phase => ?_, fun i raised phase => ?_,
    fun node shown t more => kept_of_run staged more shown⟩
  · have settles := (staged.sound i).settles
    simpa only [Settles, phase] using settles
  · have settles := (staged.sound i).settles
    simpa only [Settles, phase] using settles

end Runs

/-! ### A call that publishes -/

section Alone

variable [Floats] [Composition] [Sha256Bytes] [ZipLibrary] {stack : Nat} {destination : String}
  {first : StagingState} {entries after : Entries} {call next : Call}

/-- Only the first of the calls has taken a step. -/
def alone (entries : Entries) (call : Call) : StagingState :=
  ⟨entries, Function.update (fun _ => .begun) 0 call⟩

/-- The runs whose steps are careful. -/
abbrev CarefulRun (stack : Nat) (destination : String) (first : StagingState) : StagingState → Prop :=
  Run (stagingStep stack destination) (fun s action => Careful destination (s.calls action.1) action.2) first

theorem CarefulRun.goes (run : CarefulRun stack destination first (alone entries call)) {e : Event}
    (performed : perform stack destination entries call e = some (after, next))
    (careful : Careful destination call e) : CarefulRun stack destination first (alone after next) := by
  refine run.next (a := (0, e)) careful ?_
  simp [stagingStep, alone, performed, Function.update_idem]

end Alone

namespace StagingSamples

attribute [local instance] wholeFloats Composition.ascii Sha256Bytes.standard

def subtitleContent : ByteArray := ⟨#[97]⟩

def ledgerContent : ByteArray := ⟨#[123, 125]⟩

def subtitle : BundleFile := ⟨ManifestSamples.subtitlePath, 1, Sha256Bytes.hexdigest subtitleContent⟩

def ledger : BundleFile := ⟨ManifestSamples.ledgerPath, 2, Sha256Bytes.hexdigest ledgerContent⟩

def stageName : String := ".private-corpus-stage-abcdefgh"

/-- The lock of the destination is held, and this is the temporary directory. -/
def held (tree : FileTree) : Entries :=
  (Dict.empty.set ".staged.private-corpus.lock" (.file .empty)).set stageName (.directory tree)

def staging (phase : Phase) : Call := ⟨phase, true, some stageName, none, [], 0, none, false⟩

def directories : List (List String) := [[" - season 1.en"], [" - season 1.en", "reviewed"]]

section Trace

variable [ZipLibrary] {stack : Nat} {archive : ByteArray} {value : Json}

/-- The archive is verified, and its members are read. -/
structure Stages (stack : Nat) (archive : ByteArray) (value : Json) : Prop where
  bounded : ¬Policy.maxArchiveBytes < archive.size
  verified : verifyBundle stack archive = .ok (value, [subtitle, ledger])
  members : ∀ entries call, snapshotOf entries call = .ok archive →
    readMember entries call subtitle = .ok subtitleContent ∧ readMember entries call ledger = .ok ledgerContent

def extracting (archive : ByteArray) (value : Json) (phase : Phase) : Call :=
  { staging phase with manifest := some value, files := [subtitle, ledger], archiveBytes := archive.size }

def snapshotFiles (archive : ByteArray) : Dict (List String) ByteArray := Dict.empty.set snapshotPath archive

def manifestFiles (archive : ByteArray) (value : Json) : Dict (List String) ByteArray :=
  (snapshotFiles archive).set manifestPath (canonicalJson value)

def subtitleFiles (archive : ByteArray) (value : Json) : Dict (List String) ByteArray :=
  (manifestFiles archive value).set (posixPath subtitle.path) subtitleContent

theorem run_to_copy : CarefulRun stack "staged" (.start .empty)
    (alone (held ⟨[], snapshotFiles .empty⟩) (staging .copySnapshot)) := by
  have begun : StagingState.start .empty = alone .empty .begun := by
    simp [StagingState.start, alone]
  rw [begun]
  have starts : CarefulRun stack "staged" (alone .empty .begun) (alone .empty .begun) := .start
  have checked := starts.goes (e := .proceed) rfl trivial
  have resolved := checked.goes (e := .proceed) rfl trivial
  have locked := resolved.goes (e := .proceed) rfl trivial
  have named := locked.goes (e := .draw stageName) rfl (by decide : stageName ≠ "staged")
  have hardened := named.goes (e := .proceed) rfl trivial
  exact hardened.goes (e := .proceed) rfl trivial

theorem run_to_verified (stages : Stages stack archive value) : CarefulRun stack "staged" (.start .empty)
    (alone (held ⟨[], snapshotFiles archive⟩)
      (extracting archive value (.openFile manifestPath (canonicalJson value) [subtitle, ledger]))) := by
  have copied : perform stack "staged" (held ⟨[], snapshotFiles .empty⟩) (staging .copySnapshot)
      (.copy archive) = some (held ⟨[], snapshotFiles archive⟩, staging .copySnapshot) := by
    have present : snapshotOf (held ⟨[], snapshotFiles .empty⟩) (staging .copySnapshot) = .ok .empty := rfl
    have small : ¬Policy.maxArchiveBytes < ByteArray.empty.size + archive.size := by
      rw [ByteArray.size_empty, Nat.zero_add]
      exact stages.bounded
    have same : ByteArray.empty ++ archive = archive := ByteArray.empty_append
    unfold perform
    rw [present]
    simp only [staging, small, if_false, same]
    rfl
  have snapshot := run_to_copy.goes copied trivial
  have closed : CarefulRun stack "staged" (.start .empty) (alone (held ⟨[], snapshotFiles archive⟩)
      (staging .verify)) := snapshot.goes (e := .proceed) rfl trivial
  have read : verifySnapshot stack (held ⟨[], snapshotFiles archive⟩) (staging .verify) =
      .ok (archive, value, [subtitle, ledger]) := by
    have present : snapshotOf (held ⟨[], snapshotFiles archive⟩) (staging .verify) = .ok archive := rfl
    rw [verifySnapshot, present, ok_bind, stages.verified]
    rfl
  refine closed.goes (e := .proceed) ?_ trivial
  simp only [perform, proceed, staging] at read ⊢
  rw [read]
  rfl

theorem run_to_subtitle (stages : Stages stack archive value) : CarefulRun stack "staged" (.start .empty)
    (alone (held ⟨directories, manifestFiles archive value⟩)
      (extracting archive value (.openFile (posixPath subtitle.path) subtitleContent [ledger]))) := by
  have created := (run_to_verified stages).goes (e := .proceed) rfl trivial
  have written := created.goes (e := .proceed) rfl trivial
  have made : CarefulRun stack "staged" (.start .empty) (alone (held ⟨directories, manifestFiles archive value⟩)
      (extracting archive value (.readMember subtitle [ledger]))) := written.goes (e := .proceed) rfl trivial
  have read := (stages.members (held ⟨directories, manifestFiles archive value⟩)
    (extracting archive value (.readMember subtitle [ledger])) rfl).1
  refine made.goes (e := .proceed) ?_ trivial
  simp only [perform, proceed, extracting, staging] at read ⊢
  rw [read]

theorem run_to_ledger (stages : Stages stack archive value) : CarefulRun stack "staged" (.start .empty)
    (alone (held ⟨directories, subtitleFiles archive value⟩)
      (extracting archive value (.openFile (posixPath ledger.path) ledgerContent []))) := by
  have created := (run_to_subtitle stages).goes (e := .proceed) rfl trivial
  have written := created.goes (e := .proceed) rfl trivial
  have made : CarefulRun stack "staged" (.start .empty) (alone (held ⟨directories, subtitleFiles archive value⟩)
      (extracting archive value (.readMember ledger []))) := written.goes (e := .proceed) rfl trivial
  have read := (stages.members (held ⟨directories, subtitleFiles archive value⟩)
    (extracting archive value (.readMember ledger [])) rfl).2
  refine made.goes (e := .proceed) ?_ trivial
  simp only [perform, proceed, extracting, staging] at read ⊢
  rw [read]

/-- The destination is published, and the call is about to close its lock. -/
theorem run_to_close (stages : Stages stack archive value) : ∃ entries call,
    CarefulRun stack "staged" (.start .empty) (alone entries call) ∧
      call.phase = .close ∧ call.locked = true ∧ call.published = true := by
  have created := (run_to_ledger stages).goes (e := .proceed) rfl trivial
  have written := created.goes (e := .proceed) rfl trivial
  have extracted := written.goes (e := .proceed) rfl trivial
  have unlinked := extracted.goes (e := .proceed) rfl trivial
  have checked := unlinked.goes (e := .proceed) rfl trivial
  have renamed := checked.goes (e := .proceed) rfl trivial
  have cleaned := renamed.goes (e := .proceed) rfl trivial
  exact ⟨_, _, cleaned, rfl, rfl, rfl⟩

end Trace

def staged : Json :=
  (manifest "reviewed_ingestion" 1 [subtitle, ledger] (Sha256Bytes.hexdigest .empty)).sortKeys

def members : Members :=
  [(Policy.manifestFilename, canonicalJson staged), (subtitle.path, subtitleContent), (ledger.path, ledgerContent)]

attribute [local instance] bytesEq

local instance : ZipLibrary where
  zipFile content :=
    if content = storedArchive members then .ok (storedZipFile members)
    else .error ⟨.badZipFile, "File is not a zip file"⟩

theorem isManifest_staged :
    IsManifest "reviewed_ingestion" 1 [subtitle, ledger] (Sha256Bytes.hexdigest .empty) := by
  refine ManifestSamples.isManifest_sample fun digest member => ?_
  rcases List.mem_cons.mp member with rfl | member
  · exact Sha256Bytes.isDigest_hexdigest _
  · rcases List.mem_pair.mp member with rfl | rfl <;> exact Sha256Bytes.isDigest_hexdigest _

theorem canonicalJson_staged : canonicalJson staged =
    canonicalJson (manifest "reviewed_ingestion" 1 [subtitle, ledger] (Sha256Bytes.hexdigest .empty)) :=
  canonicalJson_congr (Json.sortKeys_sortKeys _)

theorem size_staged : (canonicalJson staged).size ≤ Policy.maxManifestBytes := by
  rw [canonicalJson_staged]
  exact size_manifest isManifest_staged

theorem fitting_members : Fitting members := by
  have bounded : ∀ {members : Members}, members.length ≤ 257 → (members.flatMap zipMember).length ≤ 300000 →
      (centralDirectory 0 members).length ≤ 1000 → Fitting members := by
    intro members count bodies central
    have limit : Policy.maxArchiveBytes = 68157440 := rfl
    have footer : eocdSize = 22 := rfl
    have most : Policy.maxFileCount = 256 := rfl
    constructor <;> omega
  have names : Policy.manifestFilename.toUTF8.data.toList.length = 13 ∧
      subtitle.path.toUTF8.data.toList.length = 37 ∧ ledger.path.toUTF8.data.toList.length = 42 := by
    decide
  have size := size_staged
  have content := length_toList (canonicalJson staged)
  have bytes : subtitleContent.data.toList.length = 1 ∧ ledgerContent.data.toList.length = 2 := by decide
  refine bounded (by decide) ?_ ?_
  · simp only [members, List.flatMap_cons, List.flatMap_nil, zipMember, zipFields, List.length_append,
      length_littleBytes, List.length_cons, List.length_nil, names, bytes, content]
    have limit : Policy.maxManifestBytes = 262144 := rfl
    generalize (canonicalJson staged).size = n at size ⊢
    omega
  · simp only [members, centralDirectory, zipFields, List.length_append, length_littleBytes,
      List.length_cons, List.length_nil, names]
    omega

def names : List String := Policy.manifestFilename :: [subtitle, ledger].map (·.path)

theorem checkNames_names : checkNames [] names = .ok () := by
  have manifestName : validateRelativeText Policy.manifestFilename "" = .ok Policy.manifestFilename := by
    decide
  refine checkNames_eq_ok.mpr ⟨fun name member => ⟨?_, List.not_mem_nil⟩, by decide⟩
  rcases List.mem_cons.mp member with rfl | member
  · exact (validateRelativeText_eq_ok.mp manifestName).2
  · obtain ⟨file, inside, rfl⟩ := List.mem_map.mp member
    exact (isManifest_staged.each file inside).path

theorem verifiedMemberBytes_members (offset : Nat) :
    verifiedMemberBytes (storedZipFile members) (storedInfo subtitle.path subtitleContent.size offset) subtitle =
        .ok subtitleContent ∧
      verifiedMemberBytes (storedZipFile members) (storedInfo ledger.path ledgerContent.size offset) ledger =
        .ok ledgerContent := by
  have plain : subtitle.path.toList.getLast? ≠ some '/' ∧ ledger.path.toList.getLast? ≠ some '/' := by
    decide
  have clean : Policy.forbiddenContent subtitleContent = false ∧
      Policy.forbiddenContent ledgerContent = false := by decide
  exact ⟨verifiedMemberBytes_stored offset rfl ⟨rfl, rfl⟩ clean.1 plain.1,
    verifiedMemberBytes_stored offset rfl ⟨rfl, rfl⟩ clean.2 plain.2⟩

theorem verifyMembers_members (first second : Nat) : verifyMembers (storedZipFile members)
    [storedInfo subtitle.path subtitleContent.size first, storedInfo ledger.path ledgerContent.size second]
    [subtitle, ledger] = .ok () := by
  rw [verifyMembers, (verifiedMemberBytes_members first).1, ok_bind, verifyMembers,
    (verifiedMemberBytes_members second).2, ok_bind]
  rfl

theorem verifyBundle_archive :
    verifyBundle 1000 (storedArchive members) = .ok (staged, [subtitle, ledger]) := by
  have opened : ZipLibrary.zipFile (storedArchive members) = .ok (storedZipFile members) := if_pos rfl
  have decoded : decodeManifest 1000 (canonicalJson staged) = .ok staged :=
    (decodeManifest_eq_ok (by decide)).mpr ⟨_, _, _, _, isManifest_staged, canonicalJson_staged, rfl⟩
  have listed : listedFiles staged = [subtitle, ledger] := listedFiles_manifest _ _ _ _
  have once : names.count Policy.manifestFilename = 1 := by decide
  have plain : Policy.manifestFilename.toList.getLast? ≠ some '/' := by decide
  have body := verifyArchive_of_checks (storedArchive_bounded fitting_members)
    (readZipEnd_storedArchive fitting_members) opened rfl (checkZipEnd_storedArchive fitting_members) rfl
    (by rw [listed]; rfl) (by rw [listed]; exact checkNames_names) (by rw [listed]; exact once)
    (regularZipMember_stored _ _ plain) size_staged rfl decoded
    (by rw [listed]; exact verifyMembers_members _ _)
  rw [verifyBundle, body, listed]

theorem readMember_archive {entries : Entries} {call : Call}
    (snapshot : snapshotOf entries call = .ok (storedArchive members)) :
    readMember entries call subtitle = .ok subtitleContent ∧
      readMember entries call ledger = .ok ledgerContent := by
  have opened : ZipLibrary.zipFile (storedArchive members) = .ok (storedZipFile members) := if_pos rfl
  obtain ⟨first, found⟩ : ∃ offset, (storedZipFile members).getinfo subtitle.path =
      .ok (storedInfo subtitle.path subtitleContent.size offset) := ⟨_, rfl⟩
  obtain ⟨second, found'⟩ : ∃ offset, (storedZipFile members).getinfo ledger.path =
      .ok (storedInfo ledger.path ledgerContent.size offset) := ⟨_, rfl⟩
  rw [readMember, readMember, snapshot, ok_bind, ok_bind, opened, ok_bind, ok_bind, found, found', ok_bind,
    ok_bind]
  exact ⟨(verifiedMemberBytes_members first).1, (verifiedMemberBytes_members second).2⟩

theorem stages_archive : Stages 1000 (storedArchive members) staged where
  bounded := (not_or.mp (storedArchive_bounded fitting_members)).2
  verified := verifyBundle_archive
  members _ _ := readMember_archive

theorem all_or_nothing_published : ∃ s, (s.calls 0).published = true ∧ AllOrNothing 1000 "staged" s := by
  obtain ⟨entries, call, run, _, _, published⟩ := run_to_close stages_archive
  exact ⟨alone entries call, published, all_or_nothing (by decide) rfl run⟩

/-- The lock cannot be closed behind the rename: the call raises, and it has published. -/
theorem raised_after_publishing : ∃ s raised,
    Run (stagingStep 1000 "staged") (fun _ _ => True) (.start .empty) s ∧
      (s.calls 0).phase = .raised raised ∧ (s.calls 0).published = true ∧ ¬AllOrNothing 1000 "staged" s := by
  obtain ⟨entries, call, run, phase, locked, published⟩ := run_to_close stages_archive
  have failed : perform 1000 "staged" entries call (.fail ⟨.osError, "Input/output error"⟩) =
      some (entries, { call with phase := .raised ⟨.osError, "Input/output error"⟩ }) := by
    simp [perform, Call.fails, phase, locked]
  have taken : stagingStep 1000 "staged" (alone entries call) (0, .fail ⟨.osError, "Input/output error"⟩) =
      some (alone entries { call with phase := .raised ⟨.osError, "Input/output error"⟩ }) := by
    simp [stagingStep, alone, failed, Function.update_idem]
  refine ⟨_, _, (run.mono fun _ _ _ => trivial).next trivial taken, rfl, published, fun all => ?_⟩
  have unpublished := all.raised 0 _ rfl
  rw [show ((alone entries { call with phase := .raised ⟨.osError, "Input/output error"⟩ }).calls 0).published =
    call.published from rfl, published] at unpublished
  cases unpublished

end StagingSamples

end Cinegraph.PrivateCorpus
