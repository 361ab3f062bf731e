import Cinegraph.PrivateCorpus.ManifestSize

/-!
The bytes that are decoded as a manifest are exactly the canonical texts of valid manifests. What
else is raised than `BundleError` comes from two kinds of JSON.
-/

namespace Cinegraph.PrivateCorpus

open Library

theorem fromUTF8?_toUTF8 (text : String) : String.fromUTF8? text.toUTF8 = some text :=
  dif_pos text.isValidUTF8

theorem encodable_eq_ok {decoded : Loaded} {value : Json} :
    encodable decoded = .ok value ↔ decoded.json? = some value := by
  unfold encodable
  cases decoded.json? <;> simp

/-! ### What is raised -/

/-- Nothing but `BundleError` is raised. -/
def OnlyBundleErrors {α : Type} (p : Except Raised α) : Prop :=
  ∀ raised, p = .error raised → raised.kind = .bundleError

namespace OnlyBundleErrors

theorem ok {α : Type} (a : α) : OnlyBundleErrors (.ok a : Except Raised α) := fun _ h => by cases h

theorem error {α : Type} (message : String) :
    OnlyBundleErrors (.error ⟨.bundleError, message⟩ : Except Raised α) := fun _ h => by
  cases h
  rfl

theorem reject (condition : Prop) [Decidable condition] (message : String) :
    OnlyBundleErrors (reject condition message .bundleError) := by
  unfold Cinegraph.reject
  split
  · exact error message
  · exact ok ()

theorem bind {α β : Type} {p : Except Raised α} {f : α → Except Raised β} (first : OnlyBundleErrors p)
    (rest : ∀ a, p = .ok a → OnlyBundleErrors (f a)) : OnlyBundleErrors (p >>= f) := by
  cases p with
  | error raised =>
      intro other same
      cases same
      exact first raised rfl
  | ok a => exact rest a rfl

theorem forM {α : Type} {check : α → Except Raised Unit} (each : ∀ a, OnlyBundleErrors (check a))
    (items : List α) : OnlyBundleErrors (items.forM check) := by
  induction items with
  | nil => exact ok ()
  | cons a items ih => exact bind (each a) fun _ _ => ih

theorem foldlM {α β : Type} {f : β → α → Except Raised β} (each : ∀ b a, OnlyBundleErrors (f b a))
    (items : List α) (b : β) : OnlyBundleErrors (items.foldlM f b) := by
  induction items generalizing b with
  | nil => exact ok b
  | cons a items ih => exact bind (each b a) fun next _ => ih next

theorem asObject (message : String) (value : Json) : OnlyBundleErrors (asObject message value) := by
  cases value <;> first | exact ok _ | exact error _

theorem asList (message : String) (value : Json) : OnlyBundleErrors (asList message value) := by
  cases value <;> first | exact ok _ | exact error _

theorem asText (message : String) (value : Json) : OnlyBundleErrors (asText message value) := by
  cases value <;> first | exact ok _ | exact error _

theorem asInt (message : String) (value : Json) : OnlyBundleErrors (asInt message value) := by
  cases value <;> first | exact ok _ | exact error _

theorem validatePurposeShape (files : List BundleFile) (purpose : String) (season : Int) :
    OnlyBundleErrors (validatePurposeShape files purpose season) := by
  refine bind (forM (fun path => ?_) _) fun _ _ => ?_
  · refine bind (reject _ _) fun _ _ => ?_
    split <;> exact reject _ _
  · split <;> exact reject _ _

variable [Composition]

theorem validateRelativeText (value message : String) :
    OnlyBundleErrors (validateRelativeText value message) :=
  bind (reject _ _) fun _ _ => bind (reject _ _) fun _ _ => bind (reject _ _) fun _ _ =>
    bind (reject _ _) fun _ _ => bind
      (forM (fun _ => bind (reject _ _) fun _ _ => reject _ _) _) fun _ _ => ok _

theorem readEntry (reading : Reading) (entry : Json) : OnlyBundleErrors (readEntry reading entry) :=
  bind (asObject _ _) fun _ _ => bind (reject _ _) fun _ _ => bind (asText _ _) fun _ _ =>
    bind (validateRelativeText _ _) fun _ _ => bind (reject _ _) fun _ _ => bind (asInt _ _) fun _ _ =>
      bind (reject _ _) fun _ _ => bind (asText _ _) fun _ _ => bind (reject _ _) fun _ _ => ok _

theorem checkManifest (items : List (String × Json)) : OnlyBundleErrors (checkManifest items) :=
  bind (reject _ _) fun _ _ => bind (asInt _ _) fun _ _ => bind (reject _ _) fun _ _ =>
    bind (asText _ _) fun _ _ => bind (reject _ _) fun _ _ => bind (asInt _ _) fun _ _ =>
      bind (reject _ _) fun _ _ => bind (asList _ _) fun _ _ => bind (reject _ _) fun _ _ =>
        bind (foldlM readEntry _ _) fun _ _ => bind (asInt _ _) fun _ _ => bind (asInt _ _) fun _ _ =>
          bind (reject _ _) fun _ _ => bind (asText _ _) fun _ _ =>
            bind (bind (reject _ _) fun _ _ => ok _) fun _ _ => validatePurposeShape _ _ _

end OnlyBundleErrors

section Canonical

variable [Floats] {stack : Nat}

theorem canonicalJson_congr {a b : Json} (same : a.sortKeys = b.sortKeys) :
    canonicalJson a = canonicalJson b := by
  rw [canonicalJson, canonicalJson, canonicalText, canonicalText, Json.packedDumps, Json.packedDumps, same]

theorem loadManifest_canonical {value : Json} (fits : Json.Fits stack value) :
    loadManifest stack (canonicalJson value) = .ok (Loaded.ofJson value.sortKeys) := by
  have read := Loaded.loadsStrict_packed (Json.fits_sortKeys stack value fits)
  rw [loadManifest, canonicalJson, fromUTF8?_toUTF8]
  simp only [canonicalText, String.toList_ofList, Json.packedDumps, read]

/-- The first byte is an opening brace, which no byte order mark begins with. -/
theorem canonicalJson_head (items : List (String × Json)) :
    ∃ rest, (canonicalJson (.obj items)).data.toList = 0x7B :: rest := by
  have brace : String.utf8EncodeChar '{' = [0x7B] := by decide
  rw [canonicalJson, canonicalText, Json.packedDumps, Json.sortKeys, Json.write, List.cons_append,
    String.toUTF8_eq_toByteArray, String.toByteArray_ofList, List.utf8Encode,
    List.toList_data_toByteArray, List.flatMap_cons, brace]
  exact ⟨_, rfl⟩

end Canonical

variable [Floats] [Composition] {stack : Nat} {raw : ByteArray}

/-- The claim of the decoder: it takes the canonical text of a valid manifest. -/
theorem decodeManifest_eq_ok (deep : 3 ≤ stack) {value : Json} : decodeManifest stack raw = .ok value ↔
    ∃ purpose season files catalogue, IsManifest purpose season files catalogue ∧
      raw = canonicalJson (manifest purpose season files catalogue) ∧
      value = (manifest purpose season files catalogue).sortKeys := by
  simp only [decodeManifest, bind_eq_ok, reject_eq_ok, encodable_eq_ok, asObject_eq_ok, not_not]
  constructor
  · rintro ⟨_, _, decoded, loaded, _, _, value, encoded, _, rfl, items, rfl, _, checked, same⟩
    cases same
    obtain ⟨purpose, season, files, catalogue, declares, valid⟩ := checkManifest_eq_ok.mp checked
    have canonical := canonicalJson_congr declares.sortKeys
    have read := loadManifest_canonical (fits_manifest purpose season files catalogue deep)
    rw [← canonical, loaded, Except.ok.injEq] at read
    rw [read, Loaded.json?_ofJson, Option.some.injEq] at encoded
    exact ⟨purpose, season, files, catalogue, valid, canonical, encoded.symm⟩
  · rintro ⟨purpose, season, files, catalogue, valid, canonical, rfl⟩
    rw [canonical]
    obtain ⟨items, object, declares⟩ := declares_sorted purpose season files catalogue
    refine ⟨(), ?_, _, loadManifest_canonical (fits_manifest _ _ _ _ deep), (), ?_, _,
      Loaded.json?_ofJson _, (), canonicalJson_congr (Json.sortKeys_sortKeys _), items, object, (),
      checkManifest_eq_ok.mpr ⟨purpose, season, files, catalogue, declares, valid⟩, rfl⟩
    · obtain ⟨rest, head⟩ := canonicalJson_head (manifestItems purpose season files catalogue)
      have bytes : 0 < (canonicalJson (manifest purpose season files catalogue)).size := by
        rw [manifest, ByteArray.size, ← Array.length_toList, head]
        exact Nat.succ_pos _
      have short := size_manifest valid
      rw [manifest] at bytes short ⊢
      simp [refused, startsWith, head, List.isPrefixOf, bytes.ne', short]
    · rw [object]
      simp [Loaded.ofJson, Loaded.isDict]

/-- No value that nests too deep is read from the bytes, and no object in which a surrogate stands
alone. -/
def Encodable (stack : Nat) (raw : ByteArray) : Prop :=
  refused raw = false → ∀ text, String.fromUTF8? raw = some text →
    Loaded.loadsStrict stack text.toList ≠ .error .recursion ∧
      ∀ decoded, Loaded.loadsStrict stack text.toList = .ok decoded → decoded.isDict = true →
        decoded.json? ≠ none

theorem onlyBundleErrors_of_encodable (encodable_raw : Encodable stack raw) :
    OnlyBundleErrors (decodeManifest stack raw) := by
  refine .bind (.reject _ _) fun _ readable => ?_
  rw [reject_eq_ok, Bool.not_eq_true] at readable
  have loading : OnlyBundleErrors (loadManifest stack raw) := by
    unfold loadManifest
    split
    · exact .error _
    · rename_i text decoded
      split
      · exact .error _
      · exact absurd ‹_› (encodable_raw readable text decoded).1
      · exact .ok _
  refine .bind loading fun decoded loaded => .bind (.reject _ _) fun _ dict => ?_
  have proper : OnlyBundleErrors (encodable decoded) := by
    unfold loadManifest at loaded
    split at loaded
    · cases loaded
    · rename_i text read
      split at loaded <;> cases loaded
      rename_i parsed
      rw [reject_eq_ok, Bool.not_eq_false] at dict
      have some_value := (encodable_raw readable text read).2 decoded parsed dict
      obtain ⟨value, same⟩ := Option.ne_none_iff_exists'.mp some_value
      rw [encodable, same]
      exact .ok value
  exact .bind proper fun _ _ => .bind (.reject _ _) fun _ _ => .bind (.asObject _ _) fun _ _ =>
    .bind (.checkManifest _) fun _ _ => .ok _

omit [Floats] [Composition] in
theorem accepted_of_readable (readable : refused raw = false) :
    reject (refused raw) "bundle manifest is malformed" .bundleError = .ok () :=
  reject_eq_ok.mpr (by rw [readable]; decide)

theorem decodeManifest_of_deep {text : String} (readable : refused raw = false)
    (read : String.fromUTF8? raw = some text) (deep : Loaded.loadsStrict stack text.toList = .error .recursion) :
    decodeManifest stack raw = .error ⟨.recursionError, "maximum recursion depth exceeded"⟩ := by
  rw [decodeManifest, accepted_of_readable readable, ok_bind, loadManifest, read]
  simp only [deep]
  rfl

/-- Brackets that nest past the stack, closed or not, raise an error that no handler translates. -/
theorem decodeManifest_nested {text : String} {n : Nat} {more : List Char}
    (readable : refused raw = false) (read : String.fromUTF8? raw = some text)
    (brackets : text.toList = List.replicate n '[' ++ more) (nested : stack < n) :
    decodeManifest stack raw = .error ⟨.recursionError, "maximum recursion depth exceeded"⟩ := by
  apply decodeManifest_of_deep readable read
  rw [brackets]
  exact Loaded.loads_deep .strict nested more

/-- The text of the manifest is encoded again outside of the handler. -/
theorem decodeManifest_of_alone {text : String} {decoded : Loaded} (readable : refused raw = false)
    (read : String.fromUTF8? raw = some text) (parsed : Loaded.loadsStrict stack text.toList = .ok decoded)
    (dict : decoded.isDict = true) (alone : decoded.json? = none) :
    decodeManifest stack raw = .error ⟨.unicodeEncodeError, "surrogates not allowed"⟩ := by
  rw [decodeManifest, accepted_of_readable readable, ok_bind, loadManifest, read]
  simp only [parsed, ok_bind, dict, encodable, alone]
  rfl

theorem encodable_of_onlyBundleErrors (only : OnlyBundleErrors (decodeManifest stack raw)) :
    Encodable stack raw := by
  intro readable text read
  constructor
  · intro deep
    cases only _ (decodeManifest_of_deep readable read deep)
  · intro decoded parsed dict alone
    cases only _ (decodeManifest_of_alone readable read parsed dict alone)

end Cinegraph.PrivateCorpus
