/-
# Explaining the command line

The summary that is shown with every refusal of a command line, and the full
explanation.
-/
import CxxFloor.CommandLine.Flag

namespace CxxFloor

/-- The summary of the command line. -/
def usageText : String :=
  "usage: stdgate [-h] [--floor STD] [-o \x7bhuman,machine,json\x7d] [--fail-on-unknown]\n"
    ++ "               [-O FILE] [-j N] [--disable FEATURE] [--list-features]\n"
    ++ "               [paths ...]\n"

/-- The explanation of the command line. -/
def helpText : String :=
  usageText ++ "\n"
    ++ "Report the minimum C++ standard a source tree needs and every newer-standard\n"
    ++ "construct in it\n\n"
    ++ "positional arguments:\n"
    ++ "  paths                 C++ source files or directories ('-' reads stdin)\n\n"
    ++ "options:\n"
    ++ "  -h, --help            show this help message and exit\n"
    ++ "  --floor STD           Highest standard the code may require, e.g. c++20\n"
    ++ "                        (known: 20, 23)\n"
    ++ "  -o \x7bhuman,machine,json\x7d, --output \x7bhuman,machine,json\x7d\n"
    ++ "                        Report format\n"
    ++ "  --fail-on-unknown     Treat ambiguous constructs and scan errors as\n"
    ++ "                        violations\n"
    ++ "  -O FILE, --output-file FILE\n"
    ++ "                        Also write the report to FILE\n"
    ++ "  -j N, --jobs N        Number of files classified in parallel\n"
    ++ "  --disable FEATURE     Skip the specified feature (can be specified multiple\n"
    ++ "                        times)\n"
    ++ "  --list-features       List all features with examples\n"

end CxxFloor
