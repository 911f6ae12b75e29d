import DjangoMojo.Edge.Render
import DjangoMojo.Foundation.PlainText

/-! # Validated values are plain

What each check of the renderer says about the text it lets through. All of them but
the check of a socket path let plain texts through only.
-/

namespace DjangoMojo.Edge

open Foundation Nginx

variable (settings : Settings)

/-! ### Whitelists -/

theorem plain_bounded {edge inner : Char → Bool} {most : Nat} {text : List Char}
    (hinner : (specialChars.all fun char => !inner char) = true)
    (hbounded : bounded edge inner most text = true) : Plain text := by
  simp only [bounded, Bool.and_eq_true] at hbounded
  obtain ⟨⟨⟨_, hall⟩, hhead⟩, _⟩ := hbounded
  refine ⟨?_, PlainChars.of_accepts hinner hall⟩
  rintro rfl
  cases hhead

theorem plain_label {text : List Char} (hlabel : labelRe text = true) : Plain text :=
  plain_bounded (by decide) hlabel

theorem plain_quietPath {text : List Char} (hpath : quietPathRe text = true) : Plain text := by
  unfold quietPathRe at hpath
  split at hpath
  next rest =>
    obtain ⟨_, hall⟩ := Bool.and_eq_true_iff.mp hpath
    have hrest : PlainChars rest := PlainChars.of_accepts (by decide) hall
    refine ⟨List.cons_ne_nil _ _, ?_⟩
    intro char hchar
    cases List.mem_cons.mp hchar with
    | inl heq =>
      subst heq
      decide
    | inr hmem => exact hrest char hmem
  next => cases hpath

/-! ### Checks -/

theorem safe_ok {value : Json} {pattern : List Char → Bool} {what result : String}
    (hsafe : safe value pattern what = .ok result) :
    value = .str result ∧ pattern result.toList = true := by
  unfold safe at hsafe
  split at hsafe
  next text =>
    split at hsafe
    next hpattern =>
      cases hsafe
      exact ⟨rfl, hpattern⟩
    next => cases hsafe
  next => cases hsafe

theorem mapM_ok_of_mem {Item Result : Type} {items : List Item} {results : List Result}
    {step : Item → Checked Result} (hall : items.mapM step = .ok results) {item : Item}
    (hitem : item ∈ items) : ∃ result ∈ results, step item = .ok result := by
  induction items generalizing results with
  | nil => cases hitem
  | cons first rest ih =>
    rw [List.mapM_cons] at hall
    simp only [bind_ok, pure_ok] at hall
    obtain ⟨result, hfirst, more, hrest, rfl⟩ := hall
    cases List.mem_cons.mp hitem with
    | inl heq => exact ⟨result, List.mem_cons_self, heq ▸ hfirst⟩
    | inr hmem =>
      obtain ⟨found, hfound, hok⟩ := ih hrest hmem
      exact ⟨found, List.mem_cons_of_mem _ hfound, hok⟩

theorem plainChars_of_withoutWildcard {text : List Char}
    (hrest : PlainChars (withoutWildcard text)) : PlainChars text := by
  unfold withoutWildcard at hrest
  split at hrest
  next rest =>
    intro char hchar
    simp only [List.mem_cons] at hchar
    rcases hchar with rfl | rfl | hmem
    · decide
    · decide
    · exact hrest char hmem
  next => exact hrest

theorem safeServerName_ok {serverName result : String}
    (hsafe : safeServerName serverName = .ok result) :
    result = serverName ∧ Plain serverName.toList := by
  simp only [safeServerName, bind_ok, pure_ok] at hsafe
  obtain ⟨parts, hparts, rfl⟩ := hsafe
  have hlabel : ∀ part ∈ (withoutWildcard serverName.toList).splitOn '.', Plain part := by
    intro part hpart
    obtain ⟨_, _, hok⟩ := mapM_ok_of_mem hparts hpart
    obtain ⟨hvalue, hre⟩ := safe_ok hok
    rw [← Json.str.inj hvalue, String.toList_ofList] at hre
    exact plain_label hre
  refine ⟨rfl, ?_, ?_⟩
  · intro hempty
    rw [hempty] at hlabel
    exact (hlabel [] (by simp [withoutWildcard, List.splitOn_nil])).1 rfl
  · apply plainChars_of_withoutWildcard
    exact PlainChars.of_splitOn (by decide) fun part hpart => (hlabel part hpart).chars

theorem validateRequestPath_ok {path : Json} {what result : String}
    (hvalid : validateRequestPath path what = .ok result) :
    path = .str result ∧ Plain result.toList := by
  unfold validateRequestPath at hvalid
  split at hvalid
  next text =>
    simp only [bind_ok, check_ok, pure_ok] at hvalid
    obtain ⟨_, hre, _, _, _, _, rfl⟩ := hvalid
    exact ⟨rfl, plain_quietPath hre⟩
  next => cases hvalid

theorem validateRoutePrefix_ok {pathPrefix result : String}
    (hvalid : validateRoutePrefix pathPrefix = .ok result) :
    result = pathPrefix ∧ Plain pathPrefix.toList ∧ pathPrefix ≠ "/" := by
  simp only [validateRoutePrefix, bind_ok, check_ok, pure_ok, decide_eq_true_eq] at hvalid
  obtain ⟨path, hpath, _, hne, rfl⟩ := hvalid
  obtain ⟨hvalue, hplain⟩ := validateRequestPath_ok hpath
  cases hvalue
  exact ⟨rfl, hplain, hne⟩

theorem validateServerName_ok {serverName result : String}
    (hvalid : validateServerName serverName = .ok result) : result = serverName := by
  simp only [validateServerName, bind_ok, pure_ok] at hvalid
  obtain ⟨_, _, _, _, _, _, _, _, rfl⟩ := hvalid
  rfl

theorem validateRedirectTarget_ok {target : Option String} {result : String}
    (hvalid : validateRedirectTarget target = .ok result) : target = some result := by
  unfold validateRedirectTarget at hvalid
  split at hvalid
  next => cases hvalid
  next host =>
    simp only [bind_ok] at hvalid
    obtain ⟨_, _, _, _, hname⟩ := hvalid
    rw [validateServerName_ok hname]

theorem validateBodySizeMb_ok {value result : Int} (hvalid : validateBodySizeMb value = .ok result) :
    result = value := by
  simp only [validateBodySizeMb, bind_ok, pure_ok] at hvalid
  obtain ⟨_, _, rfl⟩ := hvalid
  rfl

/-! ### Paths -/

theorem plain_generationDir (generation : Word) :
    Plain (generationDir settings generation).toList := by
  refine Plain.append_chars (Plain.append_chars settings.edgeRoot.plain ?_) generation.plain.chars
  decide

theorem plain_certDir (generation : Word) (certificate : Nat) :
    Plain (certDir settings generation certificate).toList := by
  refine Plain.append_chars (Plain.append_chars (plain_generationDir settings generation) ?_)
    (plainChars_digits certificate)
  decide

theorem plain_wwwDir (generation : Word) (vhost : Nat) :
    Plain (wwwDir settings generation vhost).toList := by
  refine Plain.append_chars (Plain.append_chars (plain_generationDir settings generation) ?_)
    (plainChars_digits vhost)
  decide

end DjangoMojo.Edge
