import Kindred.Content.File

/-!
# Bundled content

The categories and races that come with the program.

- `bundledFiles`: the files, line by line.
-/

namespace Kindred

/-- A file given by its lines. -/
def fileOfLines (parts lines : List String) : SourceFile :=
  ⟨parts, String.join (lines.map (· ++ "\n"))⟩

/-- The file of the category in `alver.yaml`. -/
def alverCategory : SourceFile := fileOfLines ["categories", "alver.yaml"] [
  "name: Alver",
  "ruleset: EON",
  "description: Alver stannar länge i samma synliga ålder.",
  "apparentAgeTable:",
  "  - \x7b minActualAge: 0, maxActualAge: 20, apparentAge: 10 \x7d",
  "  - \x7b minActualAge: 21, maxActualAge: 60, apparentAge: 20 \x7d",
  "  - \x7b minActualAge: 61, maxActualAge: 100, apparentAge: 25 \x7d",
  "  - \x7b minActualAge: 101, maxActualAge: 150, apparentAge: 25 \x7d",
  "  - \x7b minActualAge: 151, maxActualAge: 300, apparentAge: 30 \x7d",
  "  - \x7b minActualAge: 301, maxActualAge: 500, apparentAge: 40 \x7d",
  "  - \x7b minActualAge: 501, maxActualAge: 1000, apparentAge: 60 \x7d",
  "siblingFormula:",
  "  numberOfLitters: Ob1T6-3",
  "  litterSize: \"1\"",
  "  olderSiblingAgeFormula: characterAge + 2T6",
  "  youngerSiblingAgeFormula: characterAge - 1T6",
  "  genderFormula: \"0.5\"",
  "parentAgeFormula: oldestSiblingOrCharacterApparentAge + 20 + Ob2T6"]

/-- The file of the category in `dvargar.yaml`. -/
def dvargarCategory : SourceFile := fileOfLines ["categories", "dvargar.yaml"] [
  "name: Dvärgar",
  "ruleset: EON",
  "description: Dvärgar ser ut att vara hälften så gamla som de är.",
  "apparentAgeFormula: Math.floor(actualAge / 2)",
  "actualAgeFromApparentFormula: apparentAge * 2",
  "parentFormula:",
  "  formula: 1T100 + characterApparentAge / 2"]

/-- The file of the category in `manniskor.yaml`. -/
def manniskorCategory : SourceFile := fileOfLines ["categories", "manniskor.yaml"] [
  "name: Människor",
  "ruleset: EON",
  "description: Människor åldras som de ser ut; skenbar ålder är verklig ålder."]

/-- The file of the category in `troll.yaml`. -/
def trollCategory : SourceFile := fileOfLines ["categories", "troll.yaml"] [
  "name: Troll",
  "ruleset: EON",
  "description: Troll föds i kullar.",
  "siblingFormula:",
  "  numberOfLitters: 1T6-2",
  "  litterSize: 1T6/2+1",
  "  olderSiblingAgeFormula: characterAge + Ob1T6",
  "  youngerSiblingAgeFormula: characterAge - Ob1T6",
  "  genderFormula: 1T10:1-6=hane,7-10=hona",
  "parentFormula:",
  "  formula: 1T100",
  "  table:",
  "    - \x7b min: 1, max: 40, result: båda lever, motherAlive: true, fatherAlive: true \x7d",
  "    - \x7b min: 41, max: 80, result: modern lever, motherAlive: true, fatherAlive: false \x7d",
  "    - \x7b min: 81, max: 999, result: båda döda \x7d"]

/-- The file of the race in `alv.yaml`. -/
def alvRace : SourceFile := fileOfLines ["races", "alv.yaml"] [
  "name: Alv",
  "ruleset: EON",
  "category: Alver",
  "modifiers: \x7b SMI: 2, TÅL: -2 \x7d",
  "metadata:",
  "  parentFormula:",
  "    formula: 1T100 + characterApparentAge / 2"]

/-- The file of the race in `asharer.yaml`. -/
def asharerRace : SourceFile := fileOfLines ["races", "asharer.yaml"] [
  "name: Asharer",
  "ruleset: EON",
  "category: Människor",
  "modifiers: \x7b BIL: 1 \x7d",
  "metadata:",
  "  description: Ökenfolk med stora familjer.",
  "  siblingFormula:",
  "    numberOfLitters: Ob2T6-4",
  "    litterSize: \"1\"",
  "    olderSiblingAgeFormula: characterAge + Ob1T6",
  "    youngerSiblingAgeFormula: characterAge - Ob1T6",
  "    genderFormula: 55-45"]

/-- The file of the race in `bergstroll.yaml`. -/
def bergstrollRace : SourceFile := fileOfLines ["races", "bergstroll.yaml"] [
  "name: Bergstroll",
  "ruleset: EON",
  "category: Troll",
  "modifiers: \x7b STY: 4, BIL: -2 \x7d"]

/-- The file of the race in `dvarg.yaml`. -/
def dvargRace : SourceFile := fileOfLines ["races", "dvarg.yaml"] [
  "name: Dvärg",
  "ruleset: EON",
  "category: Dvärgar",
  "modifiers: \x7b TÅL: 2, SMI: -1 \x7d",
  "metadata:",
  "  parentAgeFormula: oldestSiblingOrCharacterApparentAge + 10 + 1T10"]

/-- The file of the race in `jorpagu.yaml`. -/
def jorpaguRace : SourceFile := fileOfLines ["races", "jorpagu.yaml"] [
  "name: Jorpagu",
  "ruleset: EON",
  "category: Människor",
  "modifiers: \x7b STY: 0, TÅL: 0 \x7d"]

/-- The files that come with the program. -/
def bundledFiles : List SourceFile :=
  [alverCategory, dvargarCategory, manniskorCategory, trollCategory, alvRace, asharerRace,
   bergstrollRace, dvargRace, jorpaguRace]

end Kindred
