import Cogterm.Parser.Characters

namespace Cogterm.VirtualTerminal

def asciiCode (s : String) : List WChar := s.toList.map (fun ch => ch.toNat.toUInt16)

inductive EscActionCodes where
  | DECBI_BackIndex
  | DECSC_CursorSave
  | DECRC_CursorRestore
  | DECFI_ForwardIndex
  | DECKPAM_KeypadApplicationMode
  | DECKPNM_KeypadNumericMode
  | IND_Index
  | NEL_NextLine
  | HTS_HorizontalTabSet
  | RI_ReverseLineFeed
  | SS2_SingleShift
  | SS3_SingleShift
  | DECID_IdentifyDevice
  | ST_StringTerminator
  | RIS_ResetToInitialState
  | LS2_LockingShift
  | LS3_LockingShift
  | LS1R_LockingShift
  | LS2R_LockingShift
  | LS3R_LockingShift
  | DECAC1_AcceptC1Controls
  | S7C1T_Send7bitC1Controls
  | S8C1T_Send8bitC1Controls
  | ACS_AnsiLevel1
  | ACS_AnsiLevel2
  | ACS_AnsiLevel3
  | DECDHL_DoubleHeightLineTop
  | DECDHL_DoubleHeightLineBottom
  | DECSWL_SingleWidthLine
  | DECDWL_DoubleWidthLine
  | DECALN_ScreenAlignmentPattern
deriving DecidableEq, Repr

def EscActionCodes.code : EscActionCodes → List WChar
  | .DECBI_BackIndex => asciiCode "6"
  | .DECSC_CursorSave => asciiCode "7"
  | .DECRC_CursorRestore => asciiCode "8"
  | .DECFI_ForwardIndex => asciiCode "9"
  | .DECKPAM_KeypadApplicationMode => asciiCode "="
  | .DECKPNM_KeypadNumericMode => asciiCode ">"
  | .IND_Index => asciiCode "D"
  | .NEL_NextLine => asciiCode "E"
  | .HTS_HorizontalTabSet => asciiCode "H"
  | .RI_ReverseLineFeed => asciiCode "M"
  | .SS2_SingleShift => asciiCode "N"
  | .SS3_SingleShift => asciiCode "O"
  | .DECID_IdentifyDevice => asciiCode "Z"
  | .ST_StringTerminator => asciiCode "\\"
  | .RIS_ResetToInitialState => asciiCode "c"
  | .LS2_LockingShift => asciiCode "n"
  | .LS3_LockingShift => asciiCode "o"
  | .LS1R_LockingShift => asciiCode "~"
  | .LS2R_LockingShift => asciiCode "\x7d"
  | .LS3R_LockingShift => asciiCode "|"
  | .DECAC1_AcceptC1Controls => asciiCode " 7"
  | .S7C1T_Send7bitC1Controls => asciiCode " F"
  | .S8C1T_Send8bitC1Controls => asciiCode " G"
  | .ACS_AnsiLevel1 => asciiCode " L"
  | .ACS_AnsiLevel2 => asciiCode " M"
  | .ACS_AnsiLevel3 => asciiCode " N"
  | .DECDHL_DoubleHeightLineTop => asciiCode "#3"
  | .DECDHL_DoubleHeightLineBottom => asciiCode "#4"
  | .DECSWL_SingleWidthLine => asciiCode "#5"
  | .DECDWL_DoubleWidthLine => asciiCode "#6"
  | .DECALN_ScreenAlignmentPattern => asciiCode "#8"

inductive CsiActionCodes where
  | ICH_InsertCharacter
  | CUU_CursorUp
  | CUD_CursorDown
  | CUF_CursorForward
  | CUB_CursorBackward
  | CNL_CursorNextLine
  | CPL_CursorPrevLine
  | CHA_CursorHorizontalAbsolute
  | CUP_CursorPosition
  | CHT_CursorForwardTab
  | ED_EraseDisplay
  | DECSED_SelectiveEraseDisplay
  | EL_EraseLine
  | DECSEL_SelectiveEraseLine
  | IL_InsertLine
  | DL_DeleteLine
  | DCH_DeleteCharacter
  | SU_ScrollUp
  | SD_ScrollDown
  | NP_NextPage
  | PP_PrecedingPage
  | DECST8C_SetTabEvery8Columns
  | ECH_EraseCharacters
  | CBT_CursorBackTab
  | HPA_HorizontalPositionAbsolute
  | HPR_HorizontalPositionRelative
  | REP_RepeatCharacter
  | DA_DeviceAttributes
  | DA2_SecondaryDeviceAttributes
  | DA3_TertiaryDeviceAttributes
  | VPA_VerticalLinePositionAbsolute
  | VPR_VerticalPositionRelative
  | HVP_HorizontalVerticalPosition
  | TBC_TabClear
  | SM_SetMode
  | DECSET_PrivateModeSet
  | RM_ResetMode
  | DECRST_PrivateModeReset
  | SGR_SetGraphicsRendition
  | DSR_DeviceStatusReport
  | DSR_PrivateDeviceStatusReport
  | DECSTBM_SetTopBottomMargins
  | DECSLRM_SetLeftRightMargins
  | DTTERM_WindowManipulation
  | ANSISYSRC_CursorRestore
  | DECREQTPARM_RequestTerminalParameters
  | PPA_PagePositionAbsolute
  | PPR_PagePositionRelative
  | PPB_PagePositionBack
  | DECSCUSR_SetCursorStyle
  | DECSTR_SoftReset
  | DECSCA_SetCharacterProtectionAttribute
  | DECRQDE_RequestDisplayedExtent
  | XT_PushSgrAlias
  | XT_PopSgrAlias
  | XT_PushSgr
  | XT_PopSgr
  | DECRQM_RequestMode
  | DECRQM_PrivateRequestMode
  | DECCARA_ChangeAttributesRectangularArea
  | DECRARA_ReverseAttributesRectangularArea
  | DECRQTSR_RequestTerminalStateReport
  | DECCRA_CopyRectangularArea
  | DECRQPSR_RequestPresentationStateReport
  | DECFRA_FillRectangularArea
  | DECERA_EraseRectangularArea
  | DECSERA_SelectiveEraseRectangularArea
  | DECSCPP_SetColumnsPerPage
  | DECRQUPSS_RequestUserPreferenceSupplementalSet
  | DECIC_InsertColumn
  | DECDC_DeleteColumn
  | DECSACE_SelectAttributeChangeExtent
  | DECRQCRA_RequestChecksumRectangularArea
  | DECINVM_InvokeMacro
  | DECAC_AssignColor
  | DECPS_PlaySound
deriving DecidableEq, Repr

def CsiActionCodes.code : CsiActionCodes → List WChar
  | .ICH_InsertCharacter => asciiCode "@"
  | .CUU_CursorUp => asciiCode "A"
  | .CUD_CursorDown => asciiCode "B"
  | .CUF_CursorForward => asciiCode "C"
  | .CUB_CursorBackward => asciiCode "D"
  | .CNL_CursorNextLine => asciiCode "E"
  | .CPL_CursorPrevLine => asciiCode "F"
  | .CHA_CursorHorizontalAbsolute => asciiCode "G"
  | .CUP_CursorPosition => asciiCode "H"
  | .CHT_CursorForwardTab => asciiCode "I"
  | .ED_EraseDisplay => asciiCode "J"
  | .DECSED_SelectiveEraseDisplay => asciiCode "?J"
  | .EL_EraseLine => asciiCode "K"
  | .DECSEL_SelectiveEraseLine => asciiCode "?K"
  | .IL_InsertLine => asciiCode "L"
  | .DL_DeleteLine => asciiCode "M"
  | .DCH_DeleteCharacter => asciiCode "P"
  | .SU_ScrollUp => asciiCode "S"
  | .SD_ScrollDown => asciiCode "T"
  | .NP_NextPage => asciiCode "U"
  | .PP_PrecedingPage => asciiCode "V"
  | .DECST8C_SetTabEvery8Columns => asciiCode "?W"
  | .ECH_EraseCharacters => asciiCode "X"
  | .CBT_CursorBackTab => asciiCode "Z"
  | .HPA_HorizontalPositionAbsolute => asciiCode "`"
  | .HPR_HorizontalPositionRelative => asciiCode "a"
  | .REP_RepeatCharacter => asciiCode "b"
  | .DA_DeviceAttributes => asciiCode "c"
  | .DA2_SecondaryDeviceAttributes => asciiCode ">c"
  | .DA3_TertiaryDeviceAttributes => asciiCode "=c"
  | .VPA_VerticalLinePositionAbsolute => asciiCode "d"
  | .VPR_VerticalPositionRelative => asciiCode "e"
  | .HVP_HorizontalVerticalPosition => asciiCode "f"
  | .TBC_TabClear => asciiCode "g"
  | .SM_SetMode => asciiCode "h"
  | .DECSET_PrivateModeSet => asciiCode "?h"
  | .RM_ResetMode => asciiCode "l"
  | .DECRST_PrivateModeReset => asciiCode "?l"
  | .SGR_SetGraphicsRendition => asciiCode "m"
  | .DSR_DeviceStatusReport => asciiCode "n"
  | .DSR_PrivateDeviceStatusReport => asciiCode "?n"
  | .DECSTBM_SetTopBottomMargins => asciiCode "r"
  | .DECSLRM_SetLeftRightMargins => asciiCode "s"
  | .DTTERM_WindowManipulation => asciiCode "t"
  | .ANSISYSRC_CursorRestore => asciiCode "u"
  | .DECREQTPARM_RequestTerminalParameters => asciiCode "x"
  | .PPA_PagePositionAbsolute => asciiCode " P"
  | .PPR_PagePositionRelative => asciiCode " Q"
  | .PPB_PagePositionBack => asciiCode " R"
  | .DECSCUSR_SetCursorStyle => asciiCode " q"
  | .DECSTR_SoftReset => asciiCode "!p"
  | .DECSCA_SetCharacterProtectionAttribute => asciiCode "\"q"
  | .DECRQDE_RequestDisplayedExtent => asciiCode "\"v"
  | .XT_PushSgrAlias => asciiCode "#p"
  | .XT_PopSgrAlias => asciiCode "#q"
  | .XT_PushSgr => asciiCode "#\x7b"
  | .XT_PopSgr => asciiCode "#\x7d"
  | .DECRQM_RequestMode => asciiCode "$p"
  | .DECRQM_PrivateRequestMode => asciiCode "?$p"
  | .DECCARA_ChangeAttributesRectangularArea => asciiCode "$r"
  | .DECRARA_ReverseAttributesRectangularArea => asciiCode "$t"
  | .DECRQTSR_RequestTerminalStateReport => asciiCode "$u"
  | .DECCRA_CopyRectangularArea => asciiCode "$v"
  | .DECRQPSR_RequestPresentationStateReport => asciiCode "$w"
  | .DECFRA_FillRectangularArea => asciiCode "$x"
  | .DECERA_EraseRectangularArea => asciiCode "$z"
  | .DECSERA_SelectiveEraseRectangularArea => asciiCode "$\x7b"
  | .DECSCPP_SetColumnsPerPage => asciiCode "$|"
  | .DECRQUPSS_RequestUserPreferenceSupplementalSet => asciiCode "&u"
  | .DECIC_InsertColumn => asciiCode "'\x7d"
  | .DECDC_DeleteColumn => asciiCode "'~"
  | .DECSACE_SelectAttributeChangeExtent => asciiCode "*x"
  | .DECRQCRA_RequestChecksumRectangularArea => asciiCode "*y"
  | .DECINVM_InvokeMacro => asciiCode "*z"
  | .DECAC_AssignColor => asciiCode ",|"
  | .DECPS_PlaySound => asciiCode ",~"

inductive DcsActionCodes where
  | SIXEL_DefineImage
  | DECDLD_DownloadDRCS
  | DECAUPSS_AssignUserPreferenceSupplementalSet
  | DECDMAC_DefineMacro
  | DECRSTS_RestoreTerminalState
  | DECRQSS_RequestSetting
  | DECRSPS_RestorePresentationState
deriving DecidableEq, Repr

def DcsActionCodes.code : DcsActionCodes → List WChar
  | .SIXEL_DefineImage => asciiCode "q"
  | .DECDLD_DownloadDRCS => asciiCode "\x7b"
  | .DECAUPSS_AssignUserPreferenceSupplementalSet => asciiCode "!u"
  | .DECDMAC_DefineMacro => asciiCode "!z"
  | .DECRSTS_RestoreTerminalState => asciiCode "$p"
  | .DECRQSS_RequestSetting => asciiCode "$q"
  | .DECRSPS_RestorePresentationState => asciiCode "$t"

inductive SequenceKind where
  | esc
  | csi
  | dcs
deriving DecidableEq, Repr

def IsCode : SequenceKind → List WChar → Prop
  | .esc, code => ∃ action : EscActionCodes, action.code = code
  | .csi, code => ∃ action : CsiActionCodes, action.code = code
  | .dcs, code => ∃ action : DcsActionCodes, action.code = code

structure WellFormedCode (code : List WChar) : Prop where
  nonempty : code ≠ []
  short : code.length ≤ 3
  ascii : ∀ wch ∈ code, 0x20 ≤ wch ∧ wch ≤ 0x7E

theorem esc_code_well_formed {action : EscActionCodes} : WellFormedCode action.code := by
  cases action <;> exact ⟨by decide, by decide, by decide⟩

theorem csi_code_well_formed {action : CsiActionCodes} : WellFormedCode action.code := by
  cases action <;> exact ⟨by decide, by decide, by decide⟩

theorem dcs_code_well_formed {action : DcsActionCodes} : WellFormedCode action.code := by
  cases action <;> exact ⟨by decide, by decide, by decide⟩

theorem is_code_well_formed (isCode : IsCode kind code) : WellFormedCode code := by
  cases kind with
  | esc =>
    obtain ⟨action, rfl⟩ := isCode
    exact esc_code_well_formed
  | csi =>
    obtain ⟨action, rfl⟩ := isCode
    exact csi_code_well_formed
  | dcs =>
    obtain ⟨action, rfl⟩ := isCode
    exact dcs_code_well_formed

theorem dcs_code_has_final (isCode : IsCode .dcs code) : ∃ wch ∈ code, 0x3F < wch := by
  obtain ⟨action, rfl⟩ := isCode
  cases action <;> decide

end Cogterm.VirtualTerminal
