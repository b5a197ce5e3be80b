import PaddingAudit.Arguments.Parse

/-!
# Usage and help

What the command says about itself, for lines of eighty columns.
-/

namespace PaddingAudit.Arguments

def paragraph (lines : List String) : String :=
  String.join (lines.map fun line => line ++ "\n")

/-- How the command is called. -/
def usage : String := paragraph
  ["usage: aligncheck [-h] [-v] [--debug] [--max-align N] [--struct NAMES]",
   "                  [--sort \x7blocation,savings\x7d] [--format \x7btext,json\x7d]",
   "                  [--log-dir LOG_DIR]",
   "                  [elf_files ...]"]

def description : String := paragraph
  ["",
   "Report structs whose size could shrink by reordering their fields, using DWARF debug information from ELF files",
   "",
   "positional arguments:",
   "  elf_files             ELF files to check (optional if ELF_FILE_PATH is set)",
   "",
   "options:",
   "  -h, --help            show this help message and exit",
   "  -v, --verbose         Output the recommended field order for each finding",
   "  --debug               Enable debug logs on stderr",
   "  --max-align N         Override the platform maximum alignment (default:",
   "                        detected from the ELF)",
   "  --struct NAMES        Only check the given structs. Supports comma-separated",
   "                        list: 'Packet,Header'",
   "  --sort \x7blocation,savings\x7d",
   "                        Order of findings (default: location)",
   "  --format \x7btext,json\x7d  Output format (default: text)",
   "  --log-dir LOG_DIR     Directory for log files (default: ./logs)",
   "",
   "Examples:",
   "  # Check every struct in a binary",
   "  aligncheck build/app.elf",
   "",
   "  # Show the recommended field order for each finding",
   "  aligncheck build/app.elf -v",
   "",
   "  # Check selected structs only",
   "  aligncheck build/app.elf --struct Packet,net::Header",
   "",
   "  # Biggest savings first, as JSON",
   "  aligncheck build/app.elf --sort savings --format json",
   "",
   "  # Using .env file for configuration",
   "  echo 'ELF_FILE_PATH=build/app.elf' > .env",
   "  aligncheck",
   "        "]

def help : String :=
  usage ++ description

/-- What the command says about a problem with its arguments. -/
def complaint (p : Problem) : String :=
  usage ++ "aligncheck: error: " ++ p.message ++ "\n"

end PaddingAudit.Arguments
