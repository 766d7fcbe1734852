import WinProfile.Lib.Act
import WinProfile.Lib.Text
import WinProfile.Lib.WinPath
import WinProfile.Lib.NameTable
import WinProfile.Lib.Shelf
import WinProfile.Journal.Entry
import WinProfile.Journal.Log
import WinProfile.Journal.Rotation
import WinProfile.Journal.History
import WinProfile.Journal.Contents
import WinProfile.Win32.Registry
import WinProfile.Repair.Engine
import WinProfile.Repair.Atomic
import WinProfile.Journal.Retention
import WinProfile.Journal.Report
import WinProfile.Journal.Interruption
import WinProfile.Lib.Process
import WinProfile.Migration.Paths
import WinProfile.Migration.Roots
import WinProfile.Profiles.Account
import WinProfile.Profiles.Collisions
import WinProfile.Profiles.Rescan
import WinProfile.App.Cancellation
import WinProfile.App.Progress
import WinProfile.App.Startup
import WinProfile.Journal.Attempts
import WinProfile.Journal.Reopen
import WinProfile.Legacy.ProgramData
import WinProfile.Legacy.Reader
import WinProfile.Legacy.Rules
import WinProfile.Legacy.Writer
import WinProfile.Lib.Argv
import WinProfile.Lib.Handles
import WinProfile.Repair.Reset
import WinProfile.Repair.Restore
import WinProfile.Snapshot.Atomic
import WinProfile.Snapshot.Inventory
import WinProfile.Win32.CommandLine
import WinProfile.App.TargetLeaf
import WinProfile.Lib.Enumeration
import WinProfile.Lib.LittleEndian
import WinProfile.Lib.Template
import WinProfile.Migration.Encoding
import WinProfile.Migration.Honesty
import WinProfile.Migration.Manifest
import WinProfile.Profiles.I18n
import WinProfile.Snapshot.Export
import WinProfile.Win32.DirectoryBuffer
import WinProfile.Win32.NameRules
import WinProfile.Win32.Privileges
import WinProfile.Lib.Lowercase
import WinProfile.Migration.Overlap
import WinProfile.Migration.Replica
import WinProfile.Migration.Selection
import WinProfile.Profiles.KeyNames
import WinProfile.Win32.Locale
import WinProfile.Migration.Listing
import WinProfile.Migration.Order
import WinProfile.Migration.Transaction
import WinProfile.App.Launch
import WinProfile.App.Rendering
import WinProfile.App.Screen
import WinProfile.App.Shown
import WinProfile.Legacy.Bystanders
import WinProfile.Profiles.DirectorySize
