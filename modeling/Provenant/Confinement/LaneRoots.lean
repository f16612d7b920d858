import Mathlib.Data.List.Infix
import Provenant.Data.Json

/-!
# The roots of a lane

A lane is given subtrees of the file system. A root is refused if it lies in a credential store, or
if it holds the home of the host or a directory of it with a store inside. Roots that are only read
may lie in a release of the Codex package, although its path has the name of a store. This file has
the refusals and shows that an accepted root and the stores below the home lie apart.

## Main definitions

* `LaneRoots.refusesLaneRoot` — the root is refused.
* `LaneRoots.credentialStores` — the stores, by their components below the home.

## Main results

* `LaneRoots.accepted_apart` — an accepted root lies in no store and holds none.

## Implementation notes

An absolute normalised path is the list of its components.
-/

namespace Provenant.LaneRoots

open Json List

/-- An absolute normalised path. -/
abbrev Path := List Text

/-- `PathScope`. -/
inductive PathScope
  | exact
  | subtree
  deriving DecidableEq

/-- `PathGrant`. -/
structure PathGrant where
  path : Path
  scope : PathScope

/-- `CREDENTIAL_DIRECTORIES`. -/
def credentialDirectories : List Text :=
  [".ssh", ".aws", ".azure", ".gnupg", ".kube", ".secrets", ".codex", ".claude", ".cursor",
    ".gemini", "Monero"].map text

/-- `NESTED_CREDENTIAL_DIRECTORIES`. -/
def nestedCredentialDirectories : List Path :=
  [[".config", "gh"], [".config", "gcloud"], ["Library", "Keychains"],
    ["Archives", "git-preservation"], ["Library", "Application Support", "GitHub CLI"]].map
    (·.map text)

/-- The directories of a home with a nested store inside. -/
def enclosing : List Path :=
  [[".config"], ["Library"], ["Library", "Application Support"], ["Archives"]].map (·.map text)

/-- The directories that hold the homes. -/
def isHomes (root : Text) : Bool := root = text "Users" || root = text "home"

/-- `is_credential_root`. -/
def isCredentialRoot (path : Path) : Bool :=
  path.any credentialDirectories.contains ||
    nestedCredentialDirectories.any fun parts => decide (parts <:+: path)

/-- `encloses_home_credentials_path`. -/
def enclosesHomeCredentialsPath (path home : Path) : Bool :=
  decide (path <+: home) || enclosing.any fun nested => path = home ++ nested

/-- `encloses_home_credentials`. -/
def enclosesHomeCredentials (grant : PathGrant) (home : Path) : Bool :=
  grant.scope = .subtree && enclosesHomeCredentialsPath grant.path home

/-- `encloses_credential_root_path`. -/
def enclosesCredentialRootPath : Path → Bool
  | root :: user :: rest =>
    isHomes root && enclosesHomeCredentialsPath (root :: user :: rest) [root, user]
  | _ => false

/-- `encloses_credential_root`. -/
def enclosesCredentialRoot (grant : PathGrant) : Bool :=
  grant.scope = .subtree && enclosesCredentialRootPath grant.path

/-- `is_codex_standalone_package`. -/
def isCodexStandalonePackage : Path → Bool
  | root :: _user :: codex :: packages :: standalone :: releases :: _release :: below =>
    isHomes root && codex = text ".codex" && packages = text "packages" &&
      standalone = text "standalone" && releases = text "releases" && !isCredentialRoot below
  | _ => false

/-- `refuses_credential_grant`. -/
def refusesCredentialGrant (grant : PathGrant) (read : Bool) : Bool :=
  if read && isCodexStandalonePackage grant.path && !enclosesCredentialRoot grant then false
  else isCredentialRoot grant.path || enclosesCredentialRoot grant

/-- `refuses_lane_root`. -/
def refusesLaneRoot (path : Path) (read : Bool) (home : Option Path) : Bool :=
  refusesCredentialGrant ⟨path, .subtree⟩ read ||
    home.any (enclosesHomeCredentials ⟨path, .subtree⟩)

/-- The stores below a home. -/
def credentialStores : List Path :=
  credentialDirectories.map ([·]) ++ nestedCredentialDirectories

/-- The path is a release directory of the Codex package, or lies below one. -/
def AtRelease (path : Path) : Prop :=
  ∃ root user release below, isHomes root = true ∧ path = root :: user ::
    [text ".codex", text "packages", text "standalone", text "releases"] ++ release :: below

lemma atRelease_of_package {path : Path} (h : isCodexStandalonePackage path = true) :
    AtRelease path := by
  unfold isCodexStandalonePackage at h
  split at h
  · simp only [Bool.and_eq_true, decide_eq_true_eq] at h
    obtain ⟨⟨⟨⟨⟨root, rfl⟩, rfl⟩, rfl⟩, rfl⟩, -⟩ := h
    exact ⟨_, _, _, _, root, rfl⟩
  · cases h

/-- A path in a store has the name of one. -/
lemma isCredentialRoot_of_infix {path store : Path} (known : store ∈ credentialStores)
    (inside : store <:+: path) : isCredentialRoot path = true := by
  rw [isCredentialRoot, Bool.or_eq_true]
  rcases mem_append.1 known with single | nested
  · obtain ⟨name, listed, rfl⟩ := mem_map.1 single
    exact .inl (any_eq_true.2 ⟨name, inside.subset (mem_singleton_self name),
      contains_iff_mem.2 listed⟩)
  · exact .inr (any_eq_true.2 ⟨store, nested, decide_eq_true inside⟩)

/-- What lies above a store, below the home, is one of the directories with a store inside. -/
lemma enclosing_of_prefix : ∀ store ∈ credentialStores, ∀ above ∈ store.inits,
    above = [] ∨ above = store ∨ above ∈ enclosing := by
  decide +kernel

/-- **An accepted root lies in no credential store of the home and holds none**, unless it is only
read and lies in a release of the Codex package.

**Proof sketch.** A root in a store has the name of the store, and is refused as a credential root.
A root that holds a store holds the home, or it is one of the directories below the home on the way
to the store. -/
theorem accepted_apart (path home : Path) (read : Bool)
    (accepted : refusesLaneRoot path read (some home) = false)
    (outside : read = true → ¬ AtRelease path) :
    ∀ store ∈ credentialStores, ¬ home ++ store <+: path ∧ ¬ path <+: home ++ store := by
  obtain ⟨grant, holds⟩ := Bool.or_eq_false_iff.1 accepted
  have named : isCredentialRoot path = false := by
    unfold refusesCredentialGrant at grant
    split at grant
    next package =>
      simp only [Bool.and_eq_true] at package
      exact absurd (atRelease_of_package package.1.2) (outside package.1.1)
    · exact (Bool.or_eq_false_iff.1 grant).1
  have unnamed : ∀ store ∈ credentialStores, ¬ store <:+: path := by
    intro store known inside
    rw [ isCredentialRoot_of_infix known inside] at named
    cases named
  obtain ⟨above, beside⟩ : ¬ path <+: home ∧ ∀ nested ∈ enclosing, path ≠ home ++ nested := by
    simpa [enclosesHomeCredentials, enclosesHomeCredentialsPath] using holds
  refine fun store known => ⟨fun below => ?_, fun atop => ?_⟩
  · exact unnamed store known ((suffix_append home store).isInfix.trans below.isInfix)
  · rcases prefix_or_prefix_of_prefix atop (prefix_append home store) with higher | ⟨rest, rfl⟩
    · exact above higher
    rcases enclosing_of_prefix store known rest
      ((mem_inits rest store).2 ((prefix_append_right_inj home).1 atop)) with rfl | rfl | listed
    · exact above (by rw [append_nil])
    · exact unnamed rest known (suffix_append home rest).isInfix
    · exact beside rest listed rfl

/-- A directory beside the keys is accepted. -/
theorem accepted_apart_work :
    ¬ [text "Users", text "me"] ++ [text ".ssh"] <+: [text "Users", text "me", text "work"] ∧
      ¬ [text "Users", text "me", text "work"] <+: [text "Users", text "me"] ++ [text ".ssh"] :=
  accepted_apart _ _ true (by decide +kernel) (by rintro - ⟨_, _, _, _, _, ⟨⟩⟩) _ (by decide)

end Provenant.LaneRoots
