import NandTools.JsonValue
import NandTools.Preferences

/-! Preferences as a JSON value, under the names that configuration files use. -/
namespace NandTools

def FilePreferences.toJson (files : FilePreferences) : JsonValue :=
  .object [("require_matching_extension", .bool files.requireExtension),
    ("enable_performance_logging", .bool files.reportTimes)]

def ScanPreferences.toJson (scan : ScanPreferences) : JsonValue :=
  .object [("collect_detailed_metrics", .bool scan.countKinds),
    ("log_string_statistics", .bool scan.reportStrings)]

def TreePreferences.toJson (tree : TreePreferences) : JsonValue :=
  .object [("format", .string tree.format.extension), ("indent_width", .nat tree.indent),
    ("pretty_json", .bool tree.pretty)]

def TranslationPreferences.toJson (translation : TranslationPreferences) : JsonValue :=
  .object [("write_bootstrap", .bool translation.bootstrap),
    ("annotate_commands", .bool translation.annotate)]

def LogPreferences.toJson (log : LogPreferences) : JsonValue :=
  .object [("use_structured_logging", .bool log.structured),
    ("enable_console_logging", .bool log.console), ("min_log_level", .string log.threshold.name),
    ("cargo_style_summary", .bool log.summary)]

def Preferences.toJson (preferences : Preferences) : JsonValue :=
  .object [("file_processor", preferences.files.toJson), ("lexical", preferences.scan.toJson),
    ("tree", preferences.tree.toJson), ("translator", preferences.translation.toJson),
    ("logging", preferences.log.toJson)]

end NandTools
