import StageTree.Tools.Remote

/-!
# Repository names

How a repository is named: by `owner/name`, by its web address, or by its clone address, each
with or without a trailing slash. Main statement: `parseRepositoryUrl_standard_forms`, that all
six read back as the owner and name, whenever the owner and name are non-empty, hold no slash,
do not begin or end the text with a blank, and the name has no `.git` ending of its own.

The proof follows the reading in order: the blanks and the trailing slash go first, leaving the
same core for a text with and without a slash (`core_of_ends`); a web address passes its scheme
and matches at the host marker, while `owner/name` holds a single slash, so no host match exists
and the two segments are read instead.
-/

namespace StageTree.Tools

/-- Text with non-blank ends and no trailing slash is its own core, with or without one
trailing slash. -/
theorem core_of_ends {core : List Char} {first last : Char} (hFirst : core.head? = some first)
    (hLast : core.getLast? = some last) (hFirstBlank : Text.isBlank first = false)
    (hLastBlank : Text.isBlank last = false) (hLastSlash : last ≠ '/') :
    dropTrailingSlashes (Text.trimBlankChars core) = core ∧
    dropTrailingSlashes (Text.trimBlankChars (core ++ ['/'])) = core := by
  have hSlash : ∀ c ∈ core.getLast?, c ≠ '/' := by
    rw [hLast]; intro c hc; cases hc; exact hLastSlash
  have hStart : ∀ c ∈ core.head?, Text.isBlank c = false := by
    rw [hFirst]; intro c hc; cases hc; exact hFirstBlank
  have hEnd : ∀ c ∈ core.getLast?, Text.isBlank c = false := by
    rw [hLast]; intro c hc; cases hc; exact hLastBlank
  have hStart' : ∀ c ∈ (core ++ ['/']).head?, Text.isBlank c = false := by
    rw [List.head?_append, hFirst]; intro c hc; cases hc; exact hFirstBlank
  have hEnd' : ∀ c ∈ (core ++ ['/']).getLast?, Text.isBlank c = false := by
    rw [List.getLast?_append]; intro c hc; cases hc; decide
  exact ⟨by rw [Text.trimBlankChars_of_ends hStart hEnd, dropTrailingSlashes_of_last hSlash],
    by rw [Text.trimBlankChars_of_ends hStart' hEnd', dropTrailingSlashes_append_slash hSlash]⟩

/-- A text whose core names an owner and repository reads as them, the `.git` ending dropped. -/
theorem parseRepositoryUrl_of_core {url : String} {core : List Char} {o r : String}
    {repo : List Char} (hCore : dropTrailingSlashes (Text.trimBlankChars url.toList) = core)
    (hFound : (afterHost core).or (ownerSlashRepo core) = some (o.toList, repo))
    (hRepo : dropGitSuffix repo = r.toList) : parseRepositoryUrl url = .ok (o, r) := by
  simp only [parseRepositoryUrl, ownerAndRepo, hCore, hFound, hRepo, String.ofList_toList]

/-- Every standard way of writing a repository reads as its owner and name: `o/r`, its web
address `https://github.com/o/r`, the clone address ending in `.git`, and each of these with a
trailing slash, for an owner and name that are non-empty and hold no slash, where the owner does
not start and the name does not end with a blank, and the name does not end in `.git`. -/
theorem parseRepositoryUrl_standard_forms (o r : String) (ho : o ≠ "") (hr : r ≠ "")
    (hoSlash : '/' ∉ o.toList) (hrSlash : '/' ∉ r.toList)
    (hoStart : ∀ c ∈ o.toList.head?, Text.isBlank c = false)
    (hrEnd : ∀ c ∈ r.toList.getLast?, Text.isBlank c = false)
    (hGit : ¬ ".git".toList <:+ r.toList) :
    parseRepositoryUrl (o ++ "/" ++ r) = .ok (o, r) ∧
    parseRepositoryUrl (o ++ "/" ++ r ++ "/") = .ok (o, r) ∧
    parseRepositoryUrl ("https://github.com/" ++ o ++ "/" ++ r) = .ok (o, r) ∧
    parseRepositoryUrl ("https://github.com/" ++ o ++ "/" ++ r ++ "/") = .ok (o, r) ∧
    parseRepositoryUrl ("https://github.com/" ++ o ++ "/" ++ r ++ ".git") = .ok (o, r) ∧
    parseRepositoryUrl ("https://github.com/" ++ o ++ "/" ++ r ++ ".git/") = .ok (o, r) := by
  have hO : o.toList ≠ [] := fun h => ho (String.toList_eq_nil_iff.1 h)
  have hR : r.toList ≠ [] := fun h => hr (String.toList_eq_nil_iff.1 h)
  obtain ⟨x, hx⟩ : ∃ x, r.toList.getLast? = some x :=
    Option.isSome_iff_exists.1 (List.getLast?_isSome.2 hR)
  obtain ⟨y, hy⟩ : ∃ y, o.toList.head? = some y :=
    Option.isSome_iff_exists.1 (List.isSome_head?.2 hO)
  have hxBlank : Text.isBlank x = false := hrEnd x hx
  have hyBlank : Text.isBlank y = false := hoStart y hy
  have hxSlash : x ≠ '/' := fun h => hrSlash (h ▸ List.mem_of_getLast? hx)
  have hGitSlash : '/' ∉ r.toList ++ ".git".toList := by
    rw [List.mem_append, not_or]; exact ⟨hrSlash, by decide⟩
  have hSlashText : "/".toList = ['/'] := by decide
  have hHost : "https://github.com/".toList = "https://".toList ++ hostMarker := by decide
  have hGitText : ".git/".toList = ".git".toList ++ ['/'] := by decide
  have hLastCons : ('/' :: r.toList).getLast? = some x := by rw [List.getLast?_cons, hx]; rfl
  have hGitLast : ".git".toList.getLast? = some 't' := by decide
  have hLastGit : ('/' :: (r.toList ++ ".git".toList)).getLast? = some 't' := by
    rw [List.getLast?_cons, List.getLast?_append, hGitLast]; rfl
  have hSchemeHead : "https://".toList.head? = some 'h' := by decide
  -- the three texts without a trailing slash
  have hPlain := @core_of_ends (o.toList ++ '/' :: r.toList) y x
    (by rw [List.head?_append, hy]; rfl) (by rw [List.getLast?_append, hLastCons]; rfl)
    hyBlank hxBlank hxSlash
  have hHosted := @core_of_ends ("https://".toList ++ (hostMarker ++ o.toList ++ '/' :: r.toList))
    'h' x (by rw [List.head?_append, hSchemeHead]; rfl)
    (by simp only [List.getLast?_append, hLastCons]; rfl)
    (by decide) hxBlank hxSlash
  have hDotted := @core_of_ends
    ("https://".toList ++ (hostMarker ++ o.toList ++ '/' :: (r.toList ++ ".git".toList)))
    'h' 't' (by rw [List.head?_append, hSchemeHead]; rfl)
    (by simp only [List.getLast?_append, hLastGit]; rfl)
    (by decide) (by decide) (by decide)
  have hPlainFound : (afterHost (o.toList ++ '/' :: r.toList)).or
      (ownerSlashRepo (o.toList ++ '/' :: r.toList)) = some (o.toList, r.toList) := by
    have hCount : (o.toList ++ '/' :: r.toList).count '/' ≤ 1 := by
      rw [List.count_append, List.count_cons, List.count_eq_zero_of_not_mem hoSlash,
        List.count_eq_zero_of_not_mem hrSlash]
      simp
    rw [afterHost_eq_none hCount, ownerSlashRepo_of_parts hO hR hoSlash hrSlash]
    rfl
  have hHostedFound :
      (afterHost ("https://".toList ++ (hostMarker ++ o.toList ++ '/' :: r.toList))).or
      (ownerSlashRepo ("https://".toList ++ (hostMarker ++ o.toList ++ '/' :: r.toList))) =
      some (o.toList, r.toList) := by
    rw [afterHost_scheme, afterHost_marker hO hR hoSlash hrSlash]
    rfl
  have hDottedFound : (afterHost
      ("https://".toList ++ (hostMarker ++ o.toList ++ '/' :: (r.toList ++ ".git".toList)))).or
      (ownerSlashRepo
        ("https://".toList ++ (hostMarker ++ o.toList ++ '/' :: (r.toList ++ ".git".toList)))) =
      some (o.toList, r.toList ++ ".git".toList) := by
    rw [afterHost_scheme, afterHost_marker hO (by simp) hoSlash hGitSlash]
    rfl
  refine ⟨?_, ?_, ?_, ?_, ?_, ?_⟩
  · exact parseRepositoryUrl_of_core (by simpa [hSlashText] using hPlain.1) hPlainFound
      (dropGitSuffix_of_not_suffix hGit)
  · exact parseRepositoryUrl_of_core (by simpa [hSlashText] using hPlain.2) hPlainFound
      (dropGitSuffix_of_not_suffix hGit)
  · exact parseRepositoryUrl_of_core (by simpa [hSlashText, hHost] using hHosted.1)
      hHostedFound (dropGitSuffix_of_not_suffix hGit)
  · exact parseRepositoryUrl_of_core (by simpa [hSlashText, hHost] using hHosted.2)
      hHostedFound (dropGitSuffix_of_not_suffix hGit)
  · exact parseRepositoryUrl_of_core (by simpa [hSlashText, hHost] using hDotted.1)
      hDottedFound (dropGitSuffix_append _)
  · exact parseRepositoryUrl_of_core (by simpa [hSlashText, hHost, hGitText] using hDotted.2)
      hDottedFound (dropGitSuffix_append _)

/-- The owner `octo` and repository `hello`, in all six ways of writing them. -/
theorem parseRepositoryUrl_standard_forms_octo :
    ("octo" ≠ "" ∧ "hello" ≠ "" ∧ '/' ∉ "octo".toList ∧ '/' ∉ "hello".toList ∧
      (∀ c ∈ "octo".toList.head?, Text.isBlank c = false) ∧
      (∀ c ∈ "hello".toList.getLast?, Text.isBlank c = false) ∧
      ¬ ".git".toList <:+ "hello".toList) ∧
    parseRepositoryUrl ("octo" ++ "/" ++ "hello") = .ok ("octo", "hello") ∧
    parseRepositoryUrl ("octo" ++ "/" ++ "hello" ++ "/") = .ok ("octo", "hello") ∧
    parseRepositoryUrl ("https://github.com/" ++ "octo" ++ "/" ++ "hello") = .ok ("octo", "hello") ∧
    parseRepositoryUrl ("https://github.com/" ++ "octo" ++ "/" ++ "hello" ++ "/") =
      .ok ("octo", "hello") ∧
    parseRepositoryUrl ("https://github.com/" ++ "octo" ++ "/" ++ "hello" ++ ".git") =
      .ok ("octo", "hello") ∧
    parseRepositoryUrl ("https://github.com/" ++ "octo" ++ "/" ++ "hello" ++ ".git/") =
      .ok ("octo", "hello") :=
  have hStart : ∀ c ∈ "octo".toList.head?, Text.isBlank c = false := by
    rw [show "octo".toList.head? = some 'o' by decide]
    intro c hc
    cases hc
    decide
  have hEnd : ∀ c ∈ "hello".toList.getLast?, Text.isBlank c = false := by
    rw [show "hello".toList.getLast? = some 'o' by decide]
    intro c hc
    cases hc
    decide
  ⟨⟨by decide, by decide, by decide, by decide, hStart, hEnd, by decide⟩,
    parseRepositoryUrl_standard_forms "octo" "hello" (by decide) (by decide) (by decide)
      (by decide) hStart hEnd (by decide)⟩

end StageTree.Tools
