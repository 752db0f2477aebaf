import StageTree.Tools.Workspace

/-!
# Pipeline files in hosted repositories

A repository is named by a URL containing `github.com/OWNER/REPO` or by `OWNER/REPO` alone,
after trimming blanks and trailing slashes; a `.git` ending of the repository's name is
dropped. The remote outline tool refuses in local-only mode, fails on a name it cannot read,
refuses sensitive paths, then fetches the file (with the token given, else the one of the
settings), refuses a text holding secrets, and outlines it through the cache under a name made
of the owner, repository, path and revision.
-/

namespace StageTree.Tools

/-- The longest start of a list of characters without a slash, and the rest. -/
def segment (cs : List Char) : List Char × List Char :=
  (cs.takeWhile (· != '/'), cs.dropWhile (· != '/'))

/-- The text that names the host. -/
def hostMarker : List Char := "github.com/".toList

/-- The owner and repository right after a `github.com/` that starts the characters, when two
non-empty segments follow it. -/
def hostAt (cs : List Char) : Option (List Char × List Char) :=
  if hostMarker.isPrefixOf cs then
    match segment (cs.drop hostMarker.length) with
    | (owner, '/' :: more) =>
      let repo := (segment more).1
      if owner.isEmpty || repo.isEmpty then none else some (owner, repo)
    | _ => none
  else none

/-- The owner and repository after the first `github.com/` that is followed by two segments. -/
def afterHost : List Char → Option (List Char × List Char)
  | [] => none
  | c :: rest =>
    match hostAt (c :: rest) with
    | some found => some found
    | none => afterHost rest

/-- The owner and repository of a text that is exactly two segments around one slash. -/
def ownerSlashRepo (cs : List Char) : Option (List Char × List Char) :=
  match segment cs with
  | (owner, '/' :: repo) =>
    if owner.isEmpty || repo.isEmpty || repo.contains '/' then none else some (owner, repo)
  | _ => none

/-- The characters without their trailing slashes. -/
def dropTrailingSlashes (cs : List Char) : List Char := (cs.reverse.dropWhile (· == '/')).reverse

/-- A repository name without its `.git` ending, if it has one. -/
def dropGitSuffix (repo : List Char) : List Char :=
  if ".git".toList.isSuffixOf repo then repo.take (repo.length - 4) else repo

/-- The owner and repository a repository text names, the repository still with any `.git`
ending: after trimming blanks and trailing slashes, the first `github.com/` followed by two
segments, else two segments around the only slash. -/
def ownerAndRepo (cs : List Char) : Option (List Char × List Char) :=
  let core := dropTrailingSlashes (Text.trimBlankChars cs)
  (afterHost core).or (ownerSlashRepo core)

/-- The owner and repository a repository URL names. -/
def parseRepositoryUrl (url : String) : Except Raised (String × String) :=
  match ownerAndRepo url.toList with
  | some (owner, repo) => .ok (String.ofList owner, String.ofList (dropGitSuffix repo))
  | none => .error (.invalid ("Could not parse GitHub URL: " ++ url))

/-- The host marker, character by character. -/
theorem hostMarker_eq : hostMarker = ['g', 'i', 't', 'h', 'u', 'b', '.', 'c', 'o', 'm', '/'] := by
  decide

/-- Characters without a slash are one whole segment. -/
theorem segment_of_no_slash {cs : List Char} (h : '/' ∉ cs) : segment cs = (cs, []) := by
  induction cs with
  | nil => rfl
  | cons c cs ih =>
    simp only [List.mem_cons, not_or] at h
    have hc : (fun x : Char => x != '/') c = true := by simpa using Ne.symm h.1
    simp only [segment] at ih ⊢
    rw [@List.takeWhile_cons_of_pos Char (fun x => x != '/') c cs hc,
      @List.dropWhile_cons_of_pos Char (fun x => x != '/') c cs hc]
    have := ih h.2
    simp only [Prod.mk.injEq] at this
    rw [this.1, this.2]

/-- A segment ends at the first slash. -/
theorem segment_append_slash {o r : List Char} (h : '/' ∉ o) :
    segment (o ++ '/' :: r) = (o, '/' :: r) := by
  induction o with
  | nil => simp [segment]
  | cons c cs ih =>
    simp only [List.mem_cons, not_or] at h
    have hc : (fun x : Char => x != '/') c = true := by simpa using Ne.symm h.1
    simp only [segment, List.cons_append] at ih ⊢
    rw [@List.takeWhile_cons_of_pos Char (fun x => x != '/') c _ hc,
      @List.dropWhile_cons_of_pos Char (fun x => x != '/') c _ hc]
    have := ih h.2
    simp only [Prod.mk.injEq] at this
    rw [this.1, this.2]

/-- No host match starts at a character other than `g`. -/
theorem hostAt_cons_of_ne {c : Char} {l : List Char} (hc : c ≠ 'g') : hostAt (c :: l) = none := by
  have hp : hostMarker.isPrefixOf (c :: l) = false := by
    rw [hostMarker_eq]
    simp [List.isPrefixOf, Ne.symm hc]
  simp [hostAt, hp]

/-- A host match needs two slashes: the marker's and the one after the owner. -/
theorem hostAt_eq_none {cs : List Char} (h : cs.count '/' ≤ 1) : hostAt cs = none := by
  unfold hostAt
  split
  · rename_i hp
    obtain ⟨t, rfl⟩ := List.isPrefixOf_iff_prefix.1 hp
    rw [List.drop_left]
    cases hd : t.dropWhile (· != '/') with
    | nil => simp [segment, hd]
    | cons d more =>
      by_cases hdslash : d = '/'
      · subst hdslash
        have hmem : '/' ∈ t := (List.dropWhile_sublist _).subset (hd ▸ List.mem_cons_self)
        have hpos : 0 < t.count '/' := List.count_pos_iff.2 hmem
        have hm : hostMarker.count '/' = 1 := by rw [hostMarker_eq]; decide
        rw [List.count_append, hm] at h
        omega
      · simp only [segment, hd]
        split
        · rename_i heq
          simp only [Prod.mk.injEq, List.cons.injEq] at heq
          exact absurd heq.2.1 hdslash
        · rfl
  · rfl

/-- Characters with at most one slash name no host. -/
theorem afterHost_eq_none {cs : List Char} (h : cs.count '/' ≤ 1) : afterHost cs = none := by
  induction cs with
  | nil => rfl
  | cons c rest ih =>
    have hrest : rest.count '/' ≤ 1 := by
      rw [List.count_cons] at h
      omega
    simp only [afterHost, hostAt_eq_none h, ih hrest]

/-- The marker followed by an owner, a slash and a repository matches them. -/
theorem hostAt_marker {o r : List Char} (ho : o ≠ []) (hr : r ≠ []) (hoSlash : '/' ∉ o)
    (hrSlash : '/' ∉ r) : hostAt (hostMarker ++ o ++ '/' :: r) = some (o, r) := by
  have hp : hostMarker.isPrefixOf (hostMarker ++ o ++ '/' :: r) = true :=
    List.isPrefixOf_iff_prefix.2 (by rw [List.append_assoc]; exact List.prefix_append _ _)
  have hd : (hostMarker ++ o ++ '/' :: r).drop hostMarker.length = o ++ '/' :: r := by
    rw [List.append_assoc, List.drop_left]
  simp only [hostAt, hp, if_true, hd, segment_append_slash hoSlash, segment_of_no_slash hrSlash]
  simp [List.isEmpty_iff, ho, hr]

/-- The search finds a match at its start. -/
theorem afterHost_marker {o r : List Char} (ho : o ≠ []) (hr : r ≠ []) (hoSlash : '/' ∉ o)
    (hrSlash : '/' ∉ r) : afterHost (hostMarker ++ o ++ '/' :: r) = some (o, r) := by
  have hne : hostMarker ++ o ++ '/' :: r = 'g' :: (hostMarker.tail ++ o ++ '/' :: r) := by
    rw [hostMarker_eq]; rfl
  rw [hne, afterHost, ← hne, hostAt_marker ho hr hoSlash hrSlash]

/-- The search passes over a character other than `g`. -/
theorem afterHost_cons_of_ne {c : Char} {l : List Char} (hc : c ≠ 'g') :
    afterHost (c :: l) = afterHost l := by
  simp only [afterHost, hostAt_cons_of_ne hc]

/-- The search passes over the scheme of a web address. -/
theorem afterHost_scheme (l : List Char) : afterHost ("https://".toList ++ l) = afterHost l := by
  have hs : "https://".toList = ['h', 't', 't', 'p', 's', ':', '/', '/'] := by decide
  rw [hs]
  simp only [List.cons_append, List.nil_append]
  repeat rw [afterHost_cons_of_ne (by decide)]

/-- Characters that do not end with a slash keep their end. -/
theorem dropTrailingSlashes_of_last {cs : List Char} (h : ∀ c ∈ cs.getLast?, c ≠ '/') :
    dropTrailingSlashes cs = cs := by
  have h' : ∀ c ∈ cs.reverse.head?, (c == '/') = false := by
    rw [List.head?_reverse]; intro c hc; simpa using h c hc
  rw [dropTrailingSlashes, Text.dropWhile_eq_self_of_head h', List.reverse_reverse]

/-- One trailing slash after characters that do not end with one is dropped. -/
theorem dropTrailingSlashes_append_slash {cs : List Char} (h : ∀ c ∈ cs.getLast?, c ≠ '/') :
    dropTrailingSlashes (cs ++ ['/']) = cs := by
  have h' : ∀ c ∈ cs.reverse.head?, (c == '/') = false := by
    rw [List.head?_reverse]; intro c hc; simpa using h c hc
  simp only [dropTrailingSlashes, List.reverse_append, List.reverse_cons, List.reverse_nil,
    List.nil_append, List.singleton_append]
  rw [List.dropWhile_cons_of_pos (by decide), Text.dropWhile_eq_self_of_head h',
    List.reverse_reverse]

/-- Two non-empty segments around one slash are an owner and a repository. -/
theorem ownerSlashRepo_of_parts {o r : List Char} (ho : o ≠ []) (hr : r ≠ [])
    (hoSlash : '/' ∉ o) (hrSlash : '/' ∉ r) : ownerSlashRepo (o ++ '/' :: r) = some (o, r) := by
  simp only [ownerSlashRepo, segment_append_slash hoSlash]
  simp [List.isEmpty_iff, ho, hr, hrSlash]

/-- A `.git` ending is dropped. -/
theorem dropGitSuffix_append (r : List Char) : dropGitSuffix (r ++ ".git".toList) = r := by
  have hs : ".git".toList.isSuffixOf (r ++ ".git".toList) = true :=
    List.isSuffixOf_iff_suffix.2 (List.suffix_append _ _)
  have hl : ".git".toList.length = 4 := by decide
  rw [dropGitSuffix, if_pos hs, List.length_append, hl, Nat.add_sub_cancel, List.take_left']
  rfl

/-- A name without a `.git` ending is kept. -/
theorem dropGitSuffix_of_not_suffix {r : List Char} (h : ¬ ".git".toList <:+ r) :
    dropGitSuffix r = r := by
  have hs : ".git".toList.isSuffixOf r = false := by
    cases hb : ".git".toList.isSuffixOf r with
    | false => rfl
    | true => exact absurd (List.isSuffixOf_iff_suffix.1 hb) h
  rw [dropGitSuffix, hs]
  rfl

/-- The message of the refusal in local-only mode. -/
def localOnlyMessage : String :=
  "Remote fetching disabled in local-only mode. " ++
    "Set PIPEOUTLINE_LOCAL_ONLY=false or unset to enable."

/-- A refusal of the remote outline tool. -/
def refusal (message : String) : Json := .obj [("success", .bool false), ("error", .str message)]

/-- The owner and name of the repository a repository argument names; a value that is no
string has no text to read them from. -/
def repositoryOf : Json → Except Raised (String × String)
  | .str url => parseRepositoryUrl url.toString
  | v =>
    .error (.attributeError ("\x27" ++ kindOf v ++ "\x27 object has no attribute \x27strip\x27"))

/-- The outline of a file in a hosted repository, its arguments as the caller gives them: the
repository is read first, then the path is checked for a sensitive name. The revision, passed on
as given, marks the document's name when it counts as true; the token is the one given when it
counts as true, else the configured one. -/
def getRemoteOutline (repo path ref flat token : Json) : ToolM Json := do
  let w ← get
  if w.settings.localOnly then return refusal localOnlyMessage
  let (owner, name) ← orRaise (repositoryOf repo)
  let path ← orRaise (pathText path)
  if Security.isSensitiveName path then
    return refusal ("Refusing to read sensitive file: " ++ path)
  let token := if truthy token then token else .str w.settings.githubToken
  let request : FetchRequest := ⟨owner, name, path, ref, token⟩
  set { w with fetched := w.fetched ++ [request] }
  let place := owner ++ "/" ++ name ++ ":" ++ path
  match w.network request with
  | .status code =>
    return refusal ("GitHub returned " ++ toString code ++ " for " ++ place)
  | .failed reason => return refusal ("Could not fetch " ++ place ++ ": " ++ reason)
  | .content text =>
    let secrets := Security.secretsIn text
    if !secrets.isEmpty then
      return refusal ("File appears to contain secrets: " ++ ", ".intercalate secrets)
    let revision := if truthy ref then "@" ++ shownText ref else ""
    let uri := "github://" ++ owner ++ "/" ++ name ++ "/" ++
      String.ofList (path.toList.dropWhile (· == '/')) ++ revision
    let w ← get
    let (r, cache) := w.cache.getText uri (Text.Str.ofString text) w.settings.maxAstNodes
    set { w with cache }
    match r with
    | .error f => throw (Raised.ofFailure f)
    | .ok (e, _) =>
      let members ← orRaise (Report.outlineMembers e (truthy flat))
      let found : Json.Members := [("success", .bool true), ("repo", .str (owner ++ "/" ++ name)),
        ("file", .str path), ("ref", ref)]
      return .obj (found ++ members)

end StageTree.Tools
