import ModuleBuild.Proofs.Compile.Requests

/-!
# Rewritten sites

A site is rewritten by the first plugin that has anything to put in its place, and what it puts there is
always a reference to one helper. So the edits of a compile are known from the sites and from the
references that the helpers got.

## Main definitions

* `Site.helper?` — the helper that a site needs under some plugins.
* `Site.edit?` — what is put in its place.

## Main statements

* `rewriteSites_edits` — the requests and the edits of a compile.
-/

namespace ModuleBuild

open FileState

/-- The helper that a plugin puts in place of a site. -/
def CompilerPlugin.helperFor : CompilerPlugin → Site → Option String
  | fallbackClass, .classDeclaration .. => some "inherits"
  | objectAssign, .call _ site =>
    if site.object == "Object" && site.property == "assign" then some "extends" else none
  | _, _ => none

namespace Site

/-- The helper that a site needs: what the first plugin puts there that puts anything there. -/
def helper? (plugins : List CompilerPlugin) (site : Site) : Option String :=
  plugins.findSome? (·.helperFor site)

/-- How a reference stands in place of a site. -/
def put (reference : String) : Site → String
  | classDeclaration .. => reference ++ ";"
  | call .. => reference

/-- The edit that puts the reference to a helper in place of a site. -/
def edit? (plugins : List CompilerPlugin) (reference : String → String) (site : Site) : Option Edit :=
  (site.helper? plugins).map fun name =>
    ⟨site.span.start, site.span.stop, site.put (reference name)⟩

end Site

section Rewrites

variable {plugins : List CompilerPlugin} {site : Site} {file file' : FileState} {text : Option String}

/-- What a rewrite did: nothing, or it asked for one helper and put the reference in place of the site. -/
def Rewritten (needed : Option String) (site : Site) (file : FileState) (text : Option String)
    (file' : FileState) : Prop :=
  match needed with
  | none => text = none ∧ file' = file
  | some name => ∃ reference, file.addHelper name = .ok (reference, file') ∧
      text = some (site.put reference)

theorem rewritten_nothing (h : (.ok (none, file) : Except CompileError _) = .ok (text, file')) :
    Rewritten none site file text file' := by
  obtain ⟨rfl, rfl⟩ := Prod.mk.inj (Except.ok.inj h)
  exact ⟨rfl, rfl⟩

theorem rewriteClass_rewritten {plugin : CompilerPlugin} {span : Script.Span} {c : ClassSite}
    (h : plugin.rewriteClass file c = .ok (text, file')) :
    Rewritten (plugin.helperFor (.classDeclaration span c)) (.classDeclaration span c) file text file' := by
  cases plugin with
  | fallbackClass =>
    obtain ⟨⟨reference, next⟩, request, h⟩ := bind_eq_ok.1 h
    obtain ⟨rfl, rfl⟩ := Prod.mk.inj (Except.ok.inj h)
    exact ⟨reference, request, rfl⟩
  | objectAssign | commonJs | runtimeHelpers | externalHelpers | importHelpers => exact rewritten_nothing h

theorem rewriteCall_rewritten {plugin : CompilerPlugin} {span : Script.Span} {c : CallSite}
    (h : plugin.rewriteCall file c = .ok (text, file')) :
    Rewritten (plugin.helperFor (.call span c)) (.call span c) file text file' := by
  cases plugin with
  | objectAssign =>
    unfold CompilerPlugin.rewriteCall at h
    unfold CompilerPlugin.helperFor
    dsimp only at h ⊢
    split at h
    · rename_i hassign
      rw [if_pos hassign]
      obtain ⟨⟨reference, next⟩, request, h⟩ := bind_eq_ok.1 h
      obtain ⟨rfl, rfl⟩ := Prod.mk.inj (Except.ok.inj h)
      exact ⟨reference, request, rfl⟩
    · rename_i hother
      rw [if_neg hother]
      exact rewritten_nothing h
  | fallbackClass | commonJs | runtimeHelpers | externalHelpers | importHelpers => exact rewritten_nothing h

theorem firstRewrite_rewritten
    {rewrite : CompilerPlugin → FileState → Except CompileError (Option String × FileState)}
    (hone : ∀ plugin file text file', rewrite plugin file = .ok (text, file') →
      Rewritten (plugin.helperFor site) site file text file')
    (h : firstRewrite rewrite plugins file = .ok (text, file')) :
    Rewritten (site.helper? plugins) site file text file' := by
  induction plugins generalizing file with
  | nil => exact rewritten_nothing h
  | cons plugin rest ih =>
    obtain ⟨⟨own, next⟩, hown, hrest⟩ := bind_eq_ok.1 h
    have hfirst := hone plugin file own next hown
    unfold Site.helper?
    rw [List.findSome?_cons]
    cases hneeded : plugin.helperFor site with
    | none =>
      rw [hneeded] at hfirst
      obtain ⟨rfl, rfl⟩ := hfirst
      exact ih hrest
    | some name =>
      rw [hneeded] at hfirst
      obtain ⟨reference, request, rfl⟩ := hfirst
      obtain ⟨rfl, rfl⟩ := Prod.mk.inj (Except.ok.inj hrest)
      exact ⟨reference, request, rfl⟩

theorem Site.rewrite_rewritten (h : site.rewrite plugins file = .ok (text, file')) :
    Rewritten (site.helper? plugins) site file text file' := by
  cases site with
  | classDeclaration span c => exact firstRewrite_rewritten (fun _ _ _ _ => rewriteClass_rewritten) h
  | call span c => exact firstRewrite_rewritten (fun _ _ _ _ => rewriteCall_rewritten) h

end Rewrites

/-- The plugins of a compile ask for the helpers that the sites need, in order, and put the references
that they get in place of these sites. -/
theorem rewriteSites_edits {plugins : List CompilerPlugin} {sites : List Site} {edits : List Edit}
    {file file' : FileState} (h : rewriteSites plugins sites file = .ok (edits, file')) :
    ∃ requests, Requested file requests file' ∧
      requests.map (·.1) = sites.filterMap (·.helper? plugins) ∧
      ∀ reference, (∀ r ∈ requests, reference r.1 = r.2) →
        edits = sites.filterMap (·.edit? plugins reference) := by
  induction sites generalizing file edits with
  | nil =>
    obtain ⟨rfl, rfl⟩ := Prod.mk.inj (Except.ok.inj h)
    exact ⟨[], .refl, rfl, fun _ _ => rfl⟩
  | cons site rest ih =>
    obtain ⟨⟨text, next⟩, hsite, h⟩ := bind_eq_ok.1 h
    obtain ⟨⟨more, last⟩, hrest, h⟩ := bind_eq_ok.1 h
    obtain ⟨rfl, rfl⟩ := Prod.mk.inj (Except.ok.inj h)
    obtain ⟨requests, hrequests, hnames, hedits⟩ := ih hrest
    have hown := Site.rewrite_rewritten hsite
    cases hneeded : site.helper? plugins with
    | none =>
      rw [hneeded] at hown
      obtain ⟨rfl, rfl⟩ := hown
      have hnone (reference : String → String) : site.edit? plugins reference = none := by
        simp [Site.edit?, hneeded]
      refine ⟨requests, hrequests, ?_, fun reference hall => ?_⟩
      · rw [List.filterMap_cons_none hneeded, hnames]
      · rw [List.filterMap_cons_none (hnone reference), ← hedits reference hall]
        rfl
    | some name =>
      rw [hneeded] at hown
      obtain ⟨own, request, rfl⟩ := hown
      refine ⟨(name, own) :: requests, (Requested.refl.more request).trans hrequests, ?_,
        fun reference hall => ?_⟩
      · rw [List.filterMap_cons_some hneeded, List.map_cons, hnames]
      · have hone : site.edit? plugins reference =
            some ⟨site.span.start, site.span.stop, site.put own⟩ := by
          have hreference : reference name = own := hall (name, own) List.mem_cons_self
          simp [Site.edit?, hneeded, hreference]
        rw [List.filterMap_cons_some hone,
          ← hedits reference fun r hr => hall r (List.mem_cons_of_mem _ hr)]
        rfl

end ModuleBuild
