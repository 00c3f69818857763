import GuestConsole.Config.Document
import GuestConsole.Console.Frame
import GuestConsole.Event.Decoder
import GuestConsole.Proofs.QueuePush
import GuestConsole.Proofs.QueueRun
import GuestConsole.Proofs.Decoding
import GuestConsole.Proofs.Timeline
import GuestConsole.Proofs.Sessions
import GuestConsole.Proofs.Groups
import GuestConsole.Proofs.InputStream
import GuestConsole.Proofs.DamageReports
import GuestConsole.Proofs.Screen
import GuestConsole.Proofs.Readable
import GuestConsole.Proofs.ClockTurns
import GuestConsole.Proofs.AlarmLog
import GuestConsole.Proofs.TimedSignals
import GuestConsole.Proofs.RenderedStrokes
import GuestConsole.Proofs.Refusals
import GuestConsole.Proofs.Pointing
import GuestConsole.Proofs.DisplayBounds
import GuestConsole.Proofs.MouseMoves
import GuestConsole.Proofs.Grammar
import GuestConsole.Proofs.DamageValidation
import GuestConsole.Proofs.PointerRoundTrip
import GuestConsole.Proofs.InputSignals
import GuestConsole.Proofs.CheckedFrames
import GuestConsole.Proofs.CopiedWords
import GuestConsole.Proofs.DamageBox
import GuestConsole.Proofs.FrameEffects
import GuestConsole.Proofs.Coordinates
import GuestConsole.Proofs.PushAgreement
import GuestConsole.Proofs.SignalCounts
import GuestConsole.Proofs.Buttons
import GuestConsole.Proofs.ButtonTurns
import GuestConsole.Proofs.KeyWords
import GuestConsole.Proofs.KeyStreams
import GuestConsole.Proofs.StepBudget
import GuestConsole.Proofs.FrameEnds
import GuestConsole.Proofs.DistinctKeys
import GuestConsole.Proofs.HeldSettings
import GuestConsole.Proofs.SettingForms
import GuestConsole.Proofs.SettingsRead
