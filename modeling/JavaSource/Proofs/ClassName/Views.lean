import JavaSource.Proofs.Imports.Declaration
import JavaSource.Proofs.TypeRef.Checked

/-!
# The names of a class from each other

The binary, the qualified and the source name of a class are computed each in its own way.  The main
theorem is `names_agree`: the qualified name is the binary name inside the package, the source name
is the same with dots for the dollar signs of the binary name, and the qualified name is cut into the
package and the simple name again.  It leads back to package and chain, too.  For that the last dot
has to be the end of the package, which it is since no identifier has a dot, and each dollar sign
behind it has to stand between two classes, which is asked for.  Dollar signs in the package do no
harm.
-/

namespace JavaSource.ClassName

/-! ## Dots for dollar signs -/

theorem DollarFree.dotted_joined {c : ClassName} (h : c.DollarFree) :
    Text.dotted (c.joined "$").toList = (c.joined ".").toList := by
  induction c with
  | root package name unboxed => exact Text.dotted_eq_self (h name (by simp [chain]))
  | member outer package name unboxed ih =>
    have houter := ih fun n hn => h n (by simp [chain, hn])
    have hname := Text.dotted_eq_self (h name (by simp [chain]))
    simp only [joined, String.toList_append, Text.dotted_append, houter, hname]
    rfl

theorem DollarFree.sourceName_eq {c : ClassName} (h : c.DollarFree) :
    c.sourceName
      = Package.qualify c.package (String.ofList (Text.dotted c.binaryName.toList)) := by
  rw [binaryName, h.dotted_joined, String.ofList_toList]
  rfl

/-! ## Back from the names -/

theorem WellFormed.qualifiedName_inj {c d : ClassName} (hc : c.WellFormed) (hd : d.WellFormed)
    (h : c.qualifiedName = d.qualifiedName) :
    c.package = d.package ∧ c.binaryName = d.binaryName := by
  have hcut := hc.splitLast?_qualifiedName
  rw [h, hd.splitLast?_qualifiedName, Prod.mk.injEq] at hcut
  exact ⟨String.toList_inj.mp hcut.1.symm, String.toList_inj.mp hcut.2.symm⟩

theorem DollarFree.binaryName_inj {c d : ClassName} (hc : c.DollarFree) (hd : d.DollarFree)
    (h : c.binaryName = d.binaryName) : c.chain = d.chain := by
  have hsep : "$".toList = ['$'] := by decide
  have hchain : c.chain.map String.toList = d.chain.map String.toList := by
    rw [← splitOn_joined hsep hc, ← splitOn_joined hsep hd, ← binaryName, h, binaryName]
  exact (List.map_inj_right fun _ _ => String.toList_inj.mp).mp hchain

/-- The names of a class agree, and the qualified name tells package, simple name and chain. -/
theorem names_agree {c : ClassName} (h : TypeRef.Checked (.named c)) :
    c.qualifiedName = (if c.package = "" then "" else c.package ++ ".") ++ c.binaryName ∧
      (c.DollarFree →
        c.sourceName = (if c.package = "" then "" else c.package ++ ".") ++
          String.ofList (c.binaryName.toList.map fun x => if x = '$' then '.' else x) ∧
        splitQualified c.qualifiedName = (c.package, c.simpleName) ∧
        ∀ d : ClassName, TypeRef.Checked (.named d) → d.DollarFree →
          d.qualifiedName = c.qualifiedName → d.package = c.package ∧ d.chain = c.chain) := by
  rw [← Package.qualify_eq_append, ← Package.qualify_eq_append]
  refine ⟨h.class.coherent.qualifiedName_eq, fun hdollar => ⟨hdollar.sourceName_eq,
    splitQualified_qualifiedName h.class hdollar, ?_⟩⟩
  intro d hd hdollar' hname
  obtain ⟨hpackage, hbinary⟩ := hd.class.qualifiedName_inj h.class hname
  exact ⟨hpackage, hdollar'.binaryName_inj hdollar hbinary⟩

/-- Two levels of nesting, and a package with a dollar sign of its own. -/
theorem names_agree_mapEntryKey :
    let c : ClassName := .nested (.nested (.top "a$b" "Map") "Entry") "Key"
    TypeRef.Checked (.named c) ∧ c.DollarFree ∧ c.binaryName = "Map$Entry$Key" ∧
      c.qualifiedName = "a$b.Map$Entry$Key" ∧ c.sourceName = "a$b.Map.Entry.Key" ∧
      splitQualified c.qualifiedName = ("a$b", "Key") ∧
      ∀ d : ClassName, TypeRef.Checked (.named d) → d.DollarFree →
        d.qualifiedName = "a$b.Map$Entry$Key" →
        d.package = "a$b" ∧ d.chain = ["Map", "Entry", "Key"] := by
  intro c
  have hmap : TypeRef.ofClass "a$b" "Map" = .ok (.named (.top "a$b" "Map")) := rfl
  have hentry : TypeRef.nestedClass (.named (.top "a$b" "Map")) "Entry"
      = .ok (.named (.nested (.top "a$b" "Map") "Entry")) := rfl
  have hkey : TypeRef.nestedClass (.named (.nested (.top "a$b" "Map") "Entry")) "Key"
      = .ok (.named c) := rfl
  have hc : TypeRef.Checked (.named c) := .nestedClass (.nestedClass (.ofClass hmap) hentry) hkey
  have hd : c.DollarFree := by decide
  obtain ⟨hqualified, hrest⟩ := names_agree hc
  obtain ⟨hsource, hsplit, hback⟩ := hrest hd
  exact ⟨hc, hd, by decide, hqualified.trans (by decide), hsource.trans (by decide), hsplit, hback⟩

end JavaSource.ClassName
